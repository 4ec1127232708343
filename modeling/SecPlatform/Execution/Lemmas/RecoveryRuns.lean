import SecPlatform.DurableExecution.Lemmas.Transitions
import SecPlatform.Execution.Lemmas.RecoveryTokens
import SecPlatform.Library.Run

/-!
# Runs of token calls

The tokens account for the events: what was used is in a set of consumed tokens, and what is in a set of
issued tokens was returned by the call that issued it.
-/

namespace SecPlatform.Execution

open Contracts DurableExecution

variable [Sha256]

/-- A call returns its result and leaves the tokens. -/
def RecoveryStep (tokens : RecoveryTokens) (e : RecoveryEvent) (tokens' : RecoveryTokens) : Prop :=
  perform tokens e.call = (e.result, tokens')

/-- Calls in any order, from the start of the process on. -/
abbrev RecoveryRun : List RecoveryEvent → RecoveryTokens → Prop := Run RecoveryStep (· = .initial)

/-- A run goes on with any call. -/
theorem RecoveryRun.call {events : List RecoveryEvent} {tokens : RecoveryTokens} (h : RecoveryRun events tokens)
    (call : RecoveryCall) {result : RecoveryResult} (hresult : (perform tokens call).1 = result) :
    RecoveryRun (events ++ [⟨call, result⟩]) (perform tokens call).2 :=
  h.snoc (Prod.ext hresult rfl)

namespace RecoveryEvent

/-- The readback that a join or an admission used. -/
def usedReadback? : RecoveryEvent → Option (Object RecoveredDomainReadbackReceipt)
  | ⟨.joinTerminal _ readback _ _, .joined _⟩ | ⟨.admitRetry _ readback, .admitted _⟩ => some readback
  | _ => none

def consumedAdmission? : RecoveryEvent → Option (Object RecoveredRetryAdmission)
  | ⟨.consumeRetry _ admission _ _, .consumed⟩ => some admission
  | _ => none

def issuedReadback? : RecoveryEvent → Option (Object RecoveredDomainReadbackReceipt)
  | ⟨_, .readback receipt⟩ => some receipt
  | _ => none

def issuedAdmission? : RecoveryEvent → Option (Object RecoveredRetryAdmission)
  | ⟨_, .admitted admission⟩ => some admission
  | _ => none

end RecoveryEvent

open RecoveryEvent

/-! ## Where tokens come from -/

/-- The readback was issued by this call, for a predecessor that is another attempt than the recovery. -/
structure IssuedBy (events : List RecoveryEvent) (recovery : BoundSemanticOperation) (input : RecoveredReadbackInput)
    (readback : Object RecoveredDomainReadbackReceipt) : Prop where
  event : ⟨.issueReadback recovery input, .readback readback⟩ ∈ events
  distinct : input.predecessor.boundAttemptDigest ≠ recovery.boundAttemptDigest
  attempt : readback.value.boundAttemptDigest = recovery.boundAttemptDigest
  predecessor : readback.value.predecessorBoundAttemptDigest = input.predecessor.boundAttemptDigest
  deadline : readback.value.predecessorDeadlineAtUnixMs = input.predecessor.deadlineAtUnixMs
  disposition : readback.value.disposition = input.disposition

/-- The admission speaks of a readback that reported `not-applied`. -/
structure AdmittedFor (events : List RecoveryEvent) (recovery : BoundSemanticOperation) (input : RecoveredReadbackInput)
    (readback : Object RecoveredDomainReadbackReceipt) (admission : Object RecoveredRetryAdmission) : Prop where
  issued : IssuedBy events recovery input readback
  notApplied : input.disposition = .notApplied
  predecessor : admission.value.previousBoundAttemptDigest = input.predecessor.boundAttemptDigest
  attempt : admission.value.recoveryBoundAttemptDigest = recovery.boundAttemptDigest
  deadline : admission.value.previousDeadlineAtUnixMs = input.predecessor.deadlineAtUnixMs

/-- The successor is a new attempt within the deadline of its predecessor, and so within the deadline of the
intent in any journal that has this predecessor as its active attempt. -/
structure BoundThrough (predecessor : RecoveredPredecessorAttemptReference) (recovery successor : BoundSemanticOperation) :
    Prop where
  notPredecessor : successor.boundAttemptDigest ≠ predecessor.boundAttemptDigest
  notRecovery : successor.boundAttemptDigest ≠ recovery.boundAttemptDigest
  deadline : successor.plan.value.attempt.deadlineAtUnixMs ≤ predecessor.deadlineAtUnixMs
  intent : ∀ records obs, observeDurableExecutionJournal records = .ok obs →
    durableExecutionPredecessorAttemptReference obs = .ok predecessor →
    successor.plan.value.attempt.deadlineAtUnixMs ≤ obs.intent.fields.deadlineAtUnixMs

/-- What holds of an event after the events before it. -/
def Justified (before : List RecoveryEvent) : RecoveryEvent → Prop
  | ⟨.admitRetry _ readback, .admitted admission⟩ =>
      ∃ recovery input, AdmittedFor before recovery input readback admission
  | ⟨.consumeRetry _ admission successor _, .consumed⟩ =>
      ∃ operation readback recovery input, ⟨.admitRetry operation readback, .admitted admission⟩ ∈ before ∧
        AdmittedFor before recovery input readback admission ∧ BoundThrough input.predecessor recovery successor
  | _ => True

variable {events : List RecoveryEvent} {tokens tokens' : RecoveryTokens} {recovery : BoundSemanticOperation}
  {input : RecoveredReadbackInput} {readback : Object RecoveredDomainReadbackReceipt}
  {admission : Object RecoveredRetryAdmission}

omit [Sha256] in
theorem IssuedBy.later (h : IssuedBy events recovery input readback) (e : RecoveryEvent) :
    IssuedBy (events ++ [e]) recovery input readback :=
  { h with event := List.mem_append_left _ h.event }

omit [Sha256] in
theorem AdmittedFor.later (h : AdmittedFor events recovery input readback admission) (e : RecoveryEvent) :
    AdmittedFor (events ++ [e]) recovery input readback admission :=
  { h with issued := h.issued.later e }

/-- A receipt that is issued now is issued by this call. -/
theorem IssuedBy.now {receipt : RecoveredDomainReadbackReceipt}
    (h : recoveredDomainReadbackReceipt tokens recovery input = .ok receipt) (ref : Nat) :
    IssuedBy (events ++ [⟨.issueReadback recovery input, .readback ⟨ref, receipt⟩⟩]) recovery input ⟨ref, receipt⟩ := by
  obtain ⟨hattempt, hpredecessor, hdistinct, hdeadline, hdisposition⟩ := recoveredDomainReadbackReceipt_ok h
  exact ⟨List.mem_append_right _ List.mem_cons_self, hdistinct, hattempt, hpredecessor, hdeadline, hdisposition⟩

/-- A successor that is bound now is bound through its admission. -/
theorem AdmittedFor.boundThrough (h : AdmittedFor events recovery input readback admission)
    {successor : BoundSemanticOperation} (ha : Authorizes admission.value successor) :
    BoundThrough input.predecessor recovery successor := by
  have hdeadline : successor.plan.value.attempt.deadlineAtUnixMs ≤ input.predecessor.deadlineAtUnixMs :=
    h.deadline ▸ ha.deadline
  refine ⟨h.predecessor ▸ ha.predecessor, h.attempt ▸ ha.recovery, hdeadline, fun records obs hobs hp => ?_⟩
  exact hdeadline.trans (predecessor_deadline_le hobs hp)

/-! ## The invariant -/

/-- The tokens account for the events. -/
structure Accounts (events : List RecoveryEvent) (tokens : RecoveryTokens) : Prop where
  readbacksUsed : SpentOnce usedReadback? events (· ∈ tokens.consumedReadbacks)
  admissionsUsed : SpentOnce consumedAdmission? events (· ∈ tokens.consumedAdmissions)
  readbacksIssued : SpentOnce issuedReadback? events (·.ref < tokens.nextRef)
  admissionsIssued : SpentOnce issuedAdmission? events (·.ref < tokens.nextRef)
  readbacks : ∀ r ∈ tokens.issuedReadbacks, ∃ recovery input, IssuedBy events recovery input r
  admissions : ∀ a ∈ tokens.issuedAdmissions, ∃ operation readback recovery input,
    ⟨.admitRetry operation readback, .admitted a⟩ ∈ events ∧ AdmittedFor events recovery input readback a
  justified : EachAfter Justified events

theorem accounts_initial : Accounts [] .initial where
  readbacksUsed := .nil
  admissionsUsed := .nil
  readbacksIssued := .nil
  admissionsIssued := .nil
  readbacks := by simp [RecoveryTokens.initial]
  admissions := by simp [RecoveryTokens.initial]
  justified := .nil

namespace Accounts

/-- An admission that is issued now speaks of its readback. -/
theorem admittedFor (h : Accounts events tokens) {operation : BoundSemanticOperation} {epoch : Text}
    (hretryable : assertRetryable tokens operation readback = .ok epoch) (ref : Nat) :
    ∃ recovery input, AdmittedFor events recovery input readback
      ⟨ref, recoveredRetryAdmission operation epoch readback.value⟩ := by
  obtain ⟨hissued, -, hnot⟩ := assertRetryable_ok hretryable
  obtain ⟨recovery, input, hby⟩ := h.readbacks readback hissued
  exact ⟨recovery, input, hby, hby.disposition.symm.trans hnot, hby.predecessor, hby.attempt, hby.deadline⟩

theorem readbacks_later (h : Accounts events tokens) (e : RecoveryEvent) :
    ∀ r ∈ tokens.issuedReadbacks, ∃ recovery input, IssuedBy (events ++ [e]) recovery input r := by
  intro r hr
  obtain ⟨recovery, input, hby⟩ := h.readbacks r hr
  exact ⟨recovery, input, hby.later e⟩

theorem admissions_later (h : Accounts events tokens) (e : RecoveryEvent) :
    ∀ a ∈ tokens.issuedAdmissions, ∃ operation readback recovery input,
      ⟨.admitRetry operation readback, .admitted a⟩ ∈ events ++ [e] ∧
        AdmittedFor (events ++ [e]) recovery input readback a := by
  intro a ha
  obtain ⟨operation, readback, recovery, input, hmem, hfor⟩ := h.admissions a ha
  exact ⟨operation, readback, recovery, input, List.mem_append_left _ hmem, hfor.later e⟩

theorem step (h : Accounts events tokens) {e : RecoveryEvent} (hstep : RecoveryStep tokens e tokens') :
    Accounts (events ++ [e]) tokens' := by
  have heffect := effect_of_perform hstep
  have hgrows := heffect.grows
  have hreadbacks := h.readbacks_later e
  have hadmissions := h.admissions_later e
  have hread : ∀ r, r ∈ tokens.consumedReadbacks → r ∈ tokens'.consumedReadbacks := fun _ hr => hgrows.consumedReadbacks hr
  have hadm : ∀ a, a ∈ tokens.consumedAdmissions → a ∈ tokens'.consumedAdmissions :=
    fun _ ha => hgrows.consumedAdmissions ha
  have hrefR : ∀ r : Object RecoveredDomainReadbackReceipt, r.ref < tokens.nextRef → r.ref < tokens'.nextRef :=
    fun _ hr => lt_of_lt_of_le hr hgrows.nextRef
  have hrefA : ∀ a : Object RecoveredRetryAdmission, a.ref < tokens.nextRef → a.ref < tokens'.nextRef :=
    fun _ ha => lt_of_lt_of_le ha hgrows.nextRef
  cases heffect with
  | compiled =>
      exact {
        readbacksUsed := h.readbacksUsed.frame rfl hread
        admissionsUsed := h.admissionsUsed.frame rfl hadm
        readbacksIssued := h.readbacksIssued.frame rfl hrefR
        admissionsIssued := h.admissionsIssued.frame rfl hrefA
        readbacks := hreadbacks
        admissions := hadmissions
        justified := h.justified.snoc trivial }
  | @readback operation input receipt hreceipt =>
      exact {
        readbacksUsed := h.readbacksUsed.frame rfl hread
        admissionsUsed := h.admissionsUsed.frame rfl hadm
        readbacksIssued := h.readbacksIssued.spend rfl (lt_irrefl _) hrefR (Nat.lt_succ_self _)
        admissionsIssued := h.admissionsIssued.frame rfl hrefA
        readbacks := by
          intro r hr
          rcases List.mem_cons.mp hr with rfl | hr
          · exact ⟨operation, input, .now hreceipt _⟩
          · exact hreadbacks r hr
        admissions := hadmissions
        justified := h.justified.snoc trivial }
  | @joined operation readback contract reference receipt hjoinable =>
      obtain ⟨-, hfresh⟩ := assertJoinable_ok hjoinable
      exact {
        readbacksUsed := h.readbacksUsed.spend rfl hfresh hread List.mem_cons_self
        admissionsUsed := h.admissionsUsed.frame rfl hadm
        readbacksIssued := h.readbacksIssued.frame rfl hrefR
        admissionsIssued := h.admissionsIssued.frame rfl hrefA
        readbacks := hreadbacks
        admissions := hadmissions
        justified := h.justified.snoc trivial }
  | @admitted operation readback epoch hretryable =>
      obtain ⟨-, hfresh, -⟩ := assertRetryable_ok hretryable
      obtain ⟨recovery, input, hfor⟩ := h.admittedFor hretryable tokens.nextRef
      exact {
        readbacksUsed := h.readbacksUsed.spend rfl hfresh hread List.mem_cons_self
        admissionsUsed := h.admissionsUsed.frame rfl hadm
        readbacksIssued := h.readbacksIssued.frame rfl hrefR
        admissionsIssued := h.admissionsIssued.spend rfl (lt_irrefl _) hrefA (Nat.lt_succ_self _)
        readbacks := hreadbacks
        admissions := by
          intro a ha
          rcases List.mem_cons.mp ha with rfl | ha
          · exact ⟨operation, readback, recovery, input, List.mem_append_right _ List.mem_cons_self, hfor.later _⟩
          · exact hadmissions a ha
        justified := h.justified.snoc ⟨recovery, input, hfor⟩ }
  | @consumed now admission successor epoch hassert =>
      obtain ⟨hissued, hfresh, hauthorizes⟩ := assertForSuccessor_ok hassert
      obtain ⟨operation, readback, recovery, input, hmem, hfor⟩ := h.admissions admission hissued
      exact {
        readbacksUsed := h.readbacksUsed.frame rfl hread
        admissionsUsed := h.admissionsUsed.spend rfl hfresh hadm List.mem_cons_self
        readbacksIssued := h.readbacksIssued.frame rfl hrefR
        admissionsIssued := h.admissionsIssued.frame rfl hrefA
        readbacks := hreadbacks
        admissions := hadmissions
        justified := h.justified.snoc ⟨operation, readback, recovery, input, hmem, hfor, hfor.boundThrough hauthorizes⟩ }
  | @thrown call message _ hg hr ha =>
      exact {
        readbacksUsed := h.readbacksUsed.frame (by cases call <;> rfl) hread
        admissionsUsed := h.admissionsUsed.frame (by cases call <;> rfl) hadm
        readbacksIssued := h.readbacksIssued.frame rfl hrefR
        admissionsIssued := h.admissionsIssued.frame rfl hrefA
        readbacks := by
          rw [hr]
          exact hreadbacks
        admissions := by
          rw [ha]
          exact hadmissions
        justified := h.justified.snoc (by cases call <;> trivial) }

end Accounts

theorem RecoveryRun.accounts (h : RecoveryRun events tokens) : Accounts events tokens := by
  refine Run.invariant (P := Accounts) ?_ (fun _ _ _ _ h hstep => h.step hstep) h
  rintro _ rfl
  exact accounts_initial

end SecPlatform.Execution
