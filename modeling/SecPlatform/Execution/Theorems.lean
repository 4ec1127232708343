import SecPlatform.Execution.Lemmas.RecoveryRuns
import SecPlatform.Execution.Lemmas.TaskGroup

/-!
# Task groups and recovery tokens

In every run of a group the callbacks in flight stay within the limit, calls go in index order and stop
at the first failure or abort, and the group ends after everything it called with all values or with
every failure. In every run of token calls a readback serves one join or one retry, and a retry is bound once.
-/

namespace SecPlatform.Execution

variable {ι ρ ω : Type}

/-! ## How a group ends -/

/-- The parent's cancellation is reported in front when it came first and is not among the failures. -/
def reportedCancellation [DecidableEq ρ] (events : List (GroupEvent ι ρ ω)) : List ρ :=
  (leadingCancellation events).toList.filter fun reason => !(failuresOf events).any (·.reason = reason)

/-- Every callback fulfilled and the parent was not aborted. -/
def AllFulfilled (items : List ι) (events : List (GroupEvent ι ρ ω)) : Prop :=
  (∀ i < items.length, ∃ value, (i, value) ∈ fulfilments events) ∧ ∀ reason, .abort reason ∉ events

/-- Every failure once, in index order, with the primary cause. -/
def ReportsFailures [DecidableEq ρ] (events : List (GroupEvent ι ρ ω)) (failure : GroupFailure ρ) : Prop :=
  ∃ reported : List (TaskFailure ρ), reported.Perm (failuresOf events) ∧
    reported.Pairwise (fun a b => a.index < b.index) ∧
    failure.errors = reportedCancellation events ++ reported.map TaskFailure.reason ∧
    failure.cause = primaryCause events

/-- The end of a group. -/
structure GroupEnd [DecidableEq ρ] (items : List ι) (events : List (GroupEvent ι ρ ω))
    (outcome : Except (GroupFailure ρ) (List (Option ω))) : Prop where
  joined : (calledIndices events).Perm (endedIndices events)
  fulfils_iff : (∃ results, outcome = .ok results) ↔ AllFulfilled items events
  results : ∀ results, outcome = .ok results →
    results.length = items.length ∧ ∀ i value, results[i]? = some (some value) ↔ (i, value) ∈ fulfilments events
  rejects : ∀ failure, outcome = .error failure → ReportsFailures events failure

/-- The law of a group at any point of a run. -/
structure GroupLaw [DecidableEq ρ] (items : List ι) (admission : GroupAdmission ρ)
    (events : List (GroupEvent ι ρ ω)) (s : GroupState ρ ω) : Prop where
  bounded : s.inFlight.length ≤ admission.concurrency
  inFlight : (calledIndices events).Perm (endedIndices events ++ s.inFlight)
  inOrder : calledIndices events = List.range s.next
  ownItem : ∀ w i x, .call w i x ∈ events → items[i]? = some x
  closed : events.Pairwise fun a b => a.Closes → ¬ b.Calls
  ended : ∀ outcome, s.outcome = some outcome → ∃ before, events = before ++ [.settle] ∧ GroupEnd items before outcome

section Settlement

variable {items : List ι} {admission : GroupAdmission ρ} {events : List (GroupEvent ι ρ ω)} {s : GroupState ρ ω}

/-- With no cause every callback has fulfilled. -/
theorem Follows.allFulfilled (h : Follows items admission events s) (hjoined : ∀ w ∈ s.workers, w = .returned)
    (hc : firstCause events = none) : AllFulfilled items events := by
  have hcauses := h.causes
  rw [CausesFollow, hc] at hcauses
  obtain ⟨hsignal, hprimary, -, hfailures⟩ := hcauses
  constructor
  · intro i hi
    rw [← h.next_eq hjoined hprimary hsignal] at hi
    have hcalled : i ∈ calledIndices events := by rwa [h.called, List.mem_range]
    have hended := (endedIndices_perm events).mem_iff.mp ((h.joined hjoined).mem_iff.mp hcalled)
    rw [hfailures, List.map_nil, List.append_nil, List.mem_map] at hended
    obtain ⟨⟨_, value⟩, hv, rfl⟩ := hended
    exact ⟨value, hv⟩
  · intro reason habort
    exact firstCause_eq_none.mp hc _ habort trivial

/-- A group in which every callback fulfilled has no cause to reject. -/
theorem Follows.firstCause_eq_none_of_allFulfilled (h : Follows items admission events s)
    (hall : AllFulfilled items events) : firstCause events = none := by
  rw [firstCause_eq_none]
  intro e he hclose
  cases e with
  | abort reason => exact hall.2 reason he
  | reject w i reason =>
      have hfailed : (⟨i, reason⟩ : TaskFailure ρ) ∈ failuresOf events := List.mem_filterMap.mpr ⟨_, he, rfl⟩
      have hlt : i < items.length := by
        have hended : i ∈ endedIndices events := List.mem_filterMap.mpr ⟨_, he, rfl⟩
        have hcalled := h.inFlight.mem_iff.mpr (List.mem_append_left _ hended)
        rw [h.called, List.mem_range] at hcalled
        exact lt_of_lt_of_le hcalled h.next_le
      obtain ⟨value, hv⟩ := hall.1 i hlt
      exact (List.nodup_append.mp h.ended_nodup).2.2 i (List.mem_map_of_mem hv) i (List.mem_map_of_mem hfailed) rfl
  | _ => exact hclose

variable [DecidableEq ρ]

theorem settlement_of_no_cause (h : Follows items admission events s) (hc : firstCause events = none) :
    s.settlement = .ok s.results := by
  have hcauses := h.causes
  rw [CausesFollow, hc] at hcauses
  obtain ⟨hsignal, -, hcancel, hfailures⟩ := hcauses
  simp [GroupState.settlement, GroupState.joined, hcancel, hsignal, h.failures, hfailures]

theorem any_failure (h : Follows items admission events s) (r : ρ) :
    s.failures.any (·.reason = r) = (failuresOf events).any (·.reason = r) := by rw [h.failures]

/-- A group with a cause rejects and reports its failures. -/
theorem settlement_of_cause (h : Follows items admission events s) {parent : Bool} {c : ρ}
    (hc : firstCause events = some (parent, c)) :
    ∃ failure, s.settlement = .error failure ∧ ReportsFailures events failure := by
  obtain ⟨hperm, hsorted⟩ := h.sorted_failures
  have hcause : primaryCause events = some c := by rw [primaryCause, hc]; rfl
  have hcauses := h.causes
  rw [CausesFollow, hc] at hcauses
  cases parent with
  | false =>
      obtain ⟨-, hprimary, hcancel, hfailed⟩ := hcauses
      have hreported : reportedCancellation events = [] := by simp [reportedCancellation, leadingCancellation, hc]
      have hsingle : ∀ f, s.failures = [f] → f.reason = c := by
        intro f hf
        simpa [← h.failures, hf] using head_failure hc
      obtain ⟨failure, hend, herrors, hfc⟩ := joined_of_failures (h.failures ▸ hfailed) hprimary hsingle
      refine ⟨failure, by rw [GroupState.settlement, hcancel]; exact hend, _, hperm, hsorted, ?_, hfc.trans hcause.symm⟩
      rw [herrors, hreported, List.nil_append, GroupState.sortedReasons]
  | true =>
      have hleading : leadingCancellation events = some c := by simp [leadingCancellation, hc]
      obtain ⟨hsignal, hcancel, ⟨hnone, hprimary⟩ | ⟨hfailed, hprimary⟩⟩ := hcauses
      · -- the parent was aborted and nothing failed
        refine ⟨.reason c, ?_, [], ?_, .nil, ?_, hcause.symm⟩
        · simp [GroupState.settlement, GroupState.joined, hcancel, hprimary, hsignal, h.failures, hnone]
        · rw [hnone]
        · simp [GroupFailure.errors, reportedCancellation, hleading, hnone]
      · by_cases hany : (failuresOf events).any (·.reason = c)
        · have hreported : reportedCancellation events = [] := by
            simp only [reportedCancellation, hleading, Option.toList_some, List.filter_cons, hany, Bool.not_true,
              Bool.false_eq_true, if_false, List.filter_nil]
          have hsingle : ∀ f, s.failures = [f] → f.reason = c := by
            intro f hf
            rw [← any_failure h, hf] at hany
            simpa using hany
          obtain ⟨failure, hend, herrors, hfc⟩ := joined_of_failures (h.failures ▸ hfailed) hprimary hsingle
          refine ⟨failure, ?_, _, hperm, hsorted, ?_, hfc.trans hcause.symm⟩
          · rw [GroupState.settlement, hcancel, hprimary]
            dsimp only
            rw [any_failure h, if_pos hany, hend]
          · rw [herrors, hreported, List.nil_append, GroupState.sortedReasons]
        · have hreported : reportedCancellation events = [c] := by
            rw [Bool.not_eq_true] at hany
            simp only [reportedCancellation, hleading, Option.toList_some, List.filter_cons, hany, Bool.not_false,
              if_true, List.filter_nil]
          refine ⟨.aggregate (c :: s.sortedReasons) GroupState.joinMessage c, ?_, _, hperm, hsorted, ?_, hcause.symm⟩
          · rw [GroupState.settlement, hcancel, hprimary]
            dsimp only
            rw [any_failure h, if_neg hany]
          · rw [hreported]
            rfl

theorem Follows.groupEnd (h : Follows items admission events s) (hjoined : ∀ w ∈ s.workers, w = .returned) :
    GroupEnd items events s.settlement := by
  cases hc : firstCause events with
  | none =>
      have hok := settlement_of_no_cause h hc
      refine ⟨h.joined hjoined, ?_, ?_, ?_⟩
      · exact ⟨fun _ => h.allFulfilled hjoined hc, fun _ => ⟨_, hok⟩⟩
      · intro results hr
        obtain rfl : s.results = results := by rw [hok] at hr; exact Except.ok.inj hr
        exact ⟨h.results_length, h.results⟩
      · intro failure hf
        rw [hok] at hf
        cases hf
  | some cause =>
      obtain ⟨failure, herror, hreports⟩ := settlement_of_cause h hc
      refine ⟨h.joined hjoined, ⟨?_, ?_⟩, ?_, ?_⟩
      · rintro ⟨results, hr⟩
        rw [herror] at hr
        cases hr
      · intro hall
        rw [h.firstCause_eq_none_of_allFulfilled hall] at hc
        cases hc
      · intro results hr
        rw [herror] at hr
        cases hr
      · intro failure' hf
        rw [herror] at hf
        cases hf
        exact hreports

end Settlement

/-! ## The law -/

section Law

variable [DecidableEq ρ] {controllerReason : ρ → ρ} {items : List ι} {admission : GroupAdmission ρ}

theorem Follows.groupLaw {events : List (GroupEvent ι ρ ω)} {s : GroupState ρ ω} (h : Follows items admission events s) :
    GroupLaw items admission events s :=
  ⟨h.inFlight_length_le, h.inFlight, h.called, h.items, h.quiet, fun outcome ho => by rw [h.running] at ho; cases ho⟩

/-- A run is still going on, or its last event was the settlement. -/
def FollowsOrSettled (items : List ι) (admission : GroupAdmission ρ) (events : List (GroupEvent ι ρ ω))
    (s : GroupState ρ ω) : Prop :=
  Follows items admission events s ∨ ∃ before s₀, events = before ++ [.settle] ∧ s = s₀.settled ∧
    Follows items admission before s₀ ∧ ∀ w ∈ s₀.workers, w = .returned

theorem follows_or_settled {events : List (GroupEvent ι ρ ω)} {s : GroupState ρ ω}
    (h : GroupRun controllerReason items admission events s) : FollowsOrSettled items admission events s := by
  refine Run.invariant (fun s hs => .inl (follows_start hs)) ?_ h
  intro events s e s' hs hstep
  rcases hs with hs | ⟨before, s₀, rfl, rfl, hs, hjoined⟩
  · cases hstep with
    | call hw hopen hitem => exact .inl (hs.call hw hopen hitem)
    | leave hw hclosed => exact .inl (hs.leave hw hclosed)
    | fulfil value hw => exact .inl (hs.fulfil value hw)
    | reject reason hw => exact .inl (hs.reject _ reason hw)
    | abort reason => exact .inl (hs.abort reason)
    | settle hjoined => exact .inr ⟨events, s, rfl, rfl, hs, hjoined⟩
  · -- a settled group takes no step: no worker is left and its outcome is set
    cases hstep with
    | call hw _ _ => exact absurd (hjoined _ (List.mem_of_getElem? hw)) (by simp)
    | leave hw _ => exact absurd (hjoined _ (List.mem_of_getElem? hw)) (by simp)
    | fulfil _ hw => exact absurd (hjoined _ (List.mem_of_getElem? hw)) (by simp)
    | reject _ hw => exact absurd (hjoined _ (List.mem_of_getElem? hw)) (by simp)
    | abort _ _ hrunning => cases hrunning
    | settle _ hrunning => cases hrunning

/-- The law holds at every point of every run, whatever the limit and the order of the events. -/
theorem groupRun_lawful {events : List (GroupEvent ι ρ ω)} {s : GroupState ρ ω}
    (h : GroupRun controllerReason items admission events s) : GroupLaw items admission events s := by
  rcases follows_or_settled h with hs | ⟨before, s₀, rfl, rfl, hs, hjoined⟩
  · exact hs.groupLaw
  · refine ⟨?_, ?_, ?_, ?_, hs.quiet_snoc id, ?_⟩
    · exact hs.inFlight_length_le
    · simpa [GroupEvent.called?, GroupEvent.ended?, GroupState.settled, GroupState.inFlight] using hs.inFlight
    · simpa [GroupEvent.called?, GroupState.settled] using hs.called
    · exact hs.items_snoc id
    · intro outcome ho
      cases ho
      exact ⟨before, rfl, hs.groupEnd hjoined⟩

end Law

/-- One worker, whose callback fails after the parent was aborted: both are reported, the abort as the cause. -/
theorem groupRun_lawful_cancelled :
    let admission : GroupAdmission Nat := ⟨1, Nat.one_pos, some ⟨none⟩⟩
    ∃ s : GroupState Nat Nat,
      s.outcome = some (.error (.aggregate [9, 3] GroupState.joinMessage 9)) ∧
      GroupLaw [5, 6] admission [.call 0 0 5, .abort 9, .reject 0 0 3, .leave 0, .settle] s := by
  intro admission
  have hstart : Run (GroupStep id [5, 6] admission) (fun s => runCapturedGroup [5, 6] admission = .ok s) [] _ :=
    .nil (s := (⟨none, [none, none], [], none, none, 0, [.head], none⟩ : GroupState Nat Nat)) rfl
  have hcalled := hstart.snoc (.call (w := 0) rfl ⟨rfl, rfl, by decide⟩ rfl)
  have haborted := hcalled.snoc (.abort 9 rfl rfl)
  have hrejected := haborted.snoc (.reject (w := 0) 3 rfl)
  have hleft := hrejected.snoc (.leave (w := 0) rfl fun hopen => nomatch hopen.1)
  exact ⟨_, rfl, groupRun_lawful (hleft.snoc (.settle (by decide) rfl))⟩

/-! ## Recovery tokens -/

open Contracts RecoveryEvent

/-- The law of the recovery tokens. -/
structure RecoveryLaw [Sha256] (events : List RecoveryEvent) : Prop where
  readbackOnce : (events.filterMap usedReadback?).Nodup
  admissionOnce : (events.filterMap consumedAdmission?).Nodup
  readbacksDistinct : (events.filterMap issuedReadback?).Nodup
  admissionsDistinct : (events.filterMap issuedAdmission?).Nodup
  justified : EachAfter Justified events

/-- The law holds of every sequence of calls, whatever they are given and whichever of them throw. -/
theorem recoveryRun_lawful [Sha256] {events : List RecoveryEvent} {tokens : RecoveryTokens}
    (h : RecoveryRun events tokens) : RecoveryLaw events := by
  have haccounts := h.accounts
  exact ⟨haccounts.readbacksUsed.nodup, haccounts.admissionsUsed.nodup, haccounts.readbacksIssued.nodup,
    haccounts.admissionsIssued.nodup, haccounts.justified⟩

/-! ## Calls that throw -/

section Throwing

variable [Sha256]

/-- The same receipts and admissions were issued and consumed. -/
structure SameTokens (tokens tokens' : RecoveryTokens) : Prop where
  issuedReadbacks : ∀ r, r ∈ tokens'.issuedReadbacks ↔ r ∈ tokens.issuedReadbacks
  consumedReadbacks : ∀ r, r ∈ tokens'.consumedReadbacks ↔ r ∈ tokens.consumedReadbacks
  issuedAdmissions : ∀ a, a ∈ tokens'.issuedAdmissions ↔ a ∈ tokens.issuedAdmissions
  consumedAdmissions : ∀ a, a ∈ tokens'.consumedAdmissions ↔ a ∈ tokens.consumedAdmissions

omit [Sha256] in
theorem SameTokens.refl (tokens : RecoveryTokens) : SameTokens tokens tokens :=
  ⟨fun _ => Iff.rfl, fun _ => Iff.rfl, fun _ => Iff.rfl, fun _ => Iff.rfl⟩

/-- The readback was issued for the attempt and is not consumed. -/
structure Joinable (tokens : RecoveryTokens) (operation : BoundSemanticOperation)
    (readback : Object RecoveredDomainReadbackReceipt) : Prop where
  projection : assertSemanticOperationProjection tokens operation = .ok ()
  binds : assertReadbackBindsOperation operation readback.value = .ok ()
  issued : readback ∈ tokens.issuedReadbacks
  fresh : readback ∉ tokens.consumedReadbacks

theorem assertJoinable_eq_ok {tokens : RecoveryTokens} {operation : BoundSemanticOperation}
    {readback : Object RecoveredDomainReadbackReceipt} :
    assertJoinable tokens operation readback = .ok () ↔ Joinable tokens operation readback := by
  unfold assertJoinable
  rw [check_bind_eq_ok, check_bind_eq_ok, check_bind_eq_ok, require_eq_ok, require_eq_ok]
  exact ⟨fun ⟨hp, hb, hi, hf⟩ => ⟨hp, hb, hi, hf⟩, fun ⟨hp, hb, hi, hf⟩ => ⟨hp, hb, hi, hf⟩⟩

/-- A readback that can be joined is joined with digests. -/
def GivenDigests (tokens : RecoveryTokens) : RecoveryCall → Prop
  | .joinTerminal operation readback contract reference =>
      Joinable tokens operation readback → isDigest contract ∧ isDigest reference
  | _ => True

/-- The receipt of a join is made for digests. -/
theorem issueOwnerTerminalJoinReceipt_succeeds (operation : BoundSemanticOperation)
    (readback : RecoveredDomainReadbackReceipt) {contract reference : Text} :
    Succeeds (issueOwnerTerminalJoinReceipt operation readback contract reference) ↔
      isDigest contract ∧ isDigest reference := by
  unfold issueOwnerTerminalJoinReceipt requireDigest Succeeds
  by_cases hcontract : isDigest contract
  · by_cases hreference : isDigest reference <;> simp [hcontract, hreference]
  · simp [hcontract]

/-- A call with digests that throws leaves the tokens. -/
theorem perform_thrown {tokens : RecoveryTokens} {call : RecoveryCall} (hgiven : GivenDigests tokens call) {message : Text}
    (h : (perform tokens call).1 = .thrown message) : (perform tokens call).2 = tokens := by
  cases call with
  | compilePlan plan => cases h
  | issueReadback operation input =>
      simp only [perform, issueRecoveredDomainReadbackReceipt] at h ⊢
      cases hreceipt : recoveredDomainReadbackReceipt tokens operation input with
      | error e => rfl
      | ok receipt => simp [hreceipt, RecoveryResult.of] at h
  | joinTerminal operation readback contract reference =>
      simp only [perform, issueRecoveredOwnerTerminalJoinReceipt] at h ⊢
      cases hjoinable : assertJoinable tokens operation readback with
      | error e => rfl
      | ok u =>
          have hdigests := hgiven (assertJoinable_eq_ok.mp hjoinable)
          obtain ⟨receipt, hreceipt⟩ := (issueOwnerTerminalJoinReceipt_succeeds operation readback.value).mpr hdigests
          simp [hjoinable, hreceipt, RecoveryResult.of] at h
  | admitRetry operation readback =>
      simp only [perform, issueRecoveredRetryAdmission] at h ⊢
      cases hretryable : assertRetryable tokens operation readback with
      | error e => rfl
      | ok epoch => simp [hretryable, RecoveryResult.of] at h
  | consumeRetry now admission successor epoch =>
      simp only [perform, consumeRecoveredRetryAdmission] at h ⊢
      cases hassert : assertRecoveredRetryAdmissionForSuccessor tokens now admission successor epoch with
      | error e => rfl
      | ok u =>
          have hfresh := (assertForSuccessor_ok hassert).2.1
          simp [hassert, hfresh, RecoveryResult.of] at h

/-- A join without digests throws after it has consumed the readback. -/
theorem perform_joinTerminal_spends {tokens : RecoveryTokens} {operation : BoundSemanticOperation}
    {readback : Object RecoveredDomainReadbackReceipt} {contract reference : Text}
    (hjoinable : Joinable tokens operation readback) (hnot : ¬(isDigest contract ∧ isDigest reference)) :
    (∃ message, (perform tokens (.joinTerminal operation readback contract reference)).1 = .thrown message) ∧
      readback ∈ (perform tokens (.joinTerminal operation readback contract reference)).2.consumedReadbacks := by
  simp only [perform, issueRecoveredOwnerTerminalJoinReceipt, assertJoinable_eq_ok.mpr hjoinable]
  cases hreceipt : issueOwnerTerminalJoinReceipt operation readback.value contract reference with
  | error e => exact ⟨⟨e, rfl⟩, List.mem_cons_self⟩
  | ok receipt => exact absurd ((issueOwnerTerminalJoinReceipt_succeeds _ _).mp ⟨receipt, hreceipt⟩) hnot

/-- A join with digests goes through. -/
theorem perform_joinTerminal_joins {tokens : RecoveryTokens} {operation : BoundSemanticOperation}
    {readback : Object RecoveredDomainReadbackReceipt} {contract reference : Text}
    (hjoinable : Joinable tokens operation readback) (hcontract : isDigest contract) (hreference : isDigest reference) :
    ∃ receipt, (perform tokens (.joinTerminal operation readback contract reference)).1 = .joined receipt := by
  obtain ⟨receipt, hreceipt⟩ :=
    (issueOwnerTerminalJoinReceipt_succeeds operation readback.value).mpr ⟨hcontract, hreference⟩
  simp only [perform, issueRecoveredOwnerTerminalJoinReceipt, assertJoinable_eq_ok.mpr hjoinable, hreceipt]
  exact ⟨receipt, rfl⟩

/-- A join of a consumed readback throws. -/
theorem perform_joinTerminal_refused {tokens : RecoveryTokens} {operation : BoundSemanticOperation}
    {readback : Object RecoveredDomainReadbackReceipt} {contract reference : Text}
    (hspent : readback ∈ tokens.consumedReadbacks) :
    ∃ message, (perform tokens (.joinTerminal operation readback contract reference)).1 = .thrown message := by
  simp only [perform, issueRecoveredOwnerTerminalJoinReceipt]
  cases hjoinable : assertJoinable tokens operation readback with
  | error e => exact ⟨e, rfl⟩
  | ok u => exact absurd hspent (assertJoinable_eq_ok.mp hjoinable).fresh

/-- Whether a call threw. -/
def RecoveryEvent.threw : RecoveryEvent → Bool
  | ⟨_, .thrown _⟩ => true
  | _ => false

/-- A step whose call is given digests. -/
def DigestStep (tokens : RecoveryTokens) (e : RecoveryEvent) (tokens' : RecoveryTokens) : Prop :=
  RecoveryStep tokens e tokens' ∧ GivenDigests tokens e.call

/-- A call that throws leaves the tokens exactly when it is given digests, and in a run of such calls those that
threw might as well not have been made. -/
theorem perform_thrown_frame :
    (∀ tokens call, ((∃ message, (perform tokens call).1 = .thrown message) → SameTokens tokens (perform tokens call).2) ↔
      GivenDigests tokens call) ∧
    ∀ events tokens, Run DigestStep (· = .initial) events tokens →
      RecoveryRun (events.filter fun e => !e.threw) tokens := by
  refine ⟨fun tokens call => ⟨fun hframe => ?_, fun hgiven ⟨message, hthrown⟩ => ?_⟩, fun events tokens hrun => ?_⟩
  · cases call with
    | joinTerminal operation readback contract reference =>
        intro hjoinable
        by_contra hnot
        obtain ⟨hthrown, hspent⟩ := perform_joinTerminal_spends hjoinable hnot
        exact hjoinable.fresh (((hframe hthrown).consumedReadbacks readback).mp hspent)
    | _ => trivial
  · rw [perform_thrown hgiven hthrown]
    exact .refl tokens
  · induction hrun with
    | nil h => exact .nil h
    | @snoc events tokens e tokens' _ hstep ih =>
        obtain ⟨call, result⟩ := e
        obtain ⟨hstep, hgiven⟩ := hstep
        rw [List.filter_append]
        cases result with
        | thrown message =>
            have hsame := perform_thrown hgiven (congrArg Prod.fst hstep)
            have htokens : tokens' = tokens := (congrArg Prod.snd hstep).symm.trans hsame
            rw [htokens]
            simpa [RecoveryEvent.threw] using ih
        | _ => exact ih.snoc hstep

end Throwing

section Example

/-- The digest with this last digit. -/
def tokenDigest (digit : Fin 16) : Digest :=
  ⟨Text.ofString "sha256:" ++ List.replicate 63 (unit '0') ++ [Json.hexDigit digit], isDigest_hexDigit digit⟩

/-- Looks at the code unit where two attempts differ. -/
local instance attemptSha256 : Sha256 := ⟨fun text => tokenDigest (Fin.ofNat 16 (text.getD 88 0).val)⟩

/-- An operation without requirements, whose attempt has this digest. -/
def boundAttempt (ref : Nat) (attempt : Digest) (deadline : Nat) : BoundSemanticOperation :=
  let plan : Object SemanticOperationPlan := ⟨ref, {
    identity := ⟨"compute.run", (tokenDigest 1).val, (tokenDigest 2).val, (tokenDigest 3).val⟩
    execution := ⟨(tokenDigest 3).val, [], [], (tokenDigest 4).val⟩
    attempt := ⟨(tokenDigest 3).val, (tokenDigest 4).val, (tokenDigest 5).val, none, some (tokenDigest 6).val,
      (tokenDigest 7).val, deadline, attempt.val⟩ }⟩
  let bindingSet := digestOf (.obj [("operationIdentityDigest", .str (tokenDigest 3).val),
    ("executionPlanDigest", .str (tokenDigest 4).val), ("bindings", .arr [])])
  ⟨plan, [], bindingSet, digestOf (.obj [("attemptDigest", .str attempt.val), ("bindingSetIdentityDigest", .str bindingSet)])⟩

def recoveringAttempt : BoundSemanticOperation := boundAttempt 0 (tokenDigest 14) 2000

def retriedAttempt : BoundSemanticOperation := boundAttempt 1 (tokenDigest 15) 1900

/-- A readback that found nothing applied. -/
def notAppliedInput : RecoveredReadbackInput where
  predecessor := ⟨(tokenDigest 3).val, (tokenDigest 4).val, recoveringAttempt.bindingSetIdentityDigest,
    (tokenDigest 8).val, (tokenDigest 9).val, (tokenDigest 5).val, none, 2000⟩
  durableObservationDigest := (tokenDigest 10).val
  readbackContractDigest := (tokenDigest 11).val
  readbackReferenceDigest := (tokenDigest 12).val
  currentPhysicalEpochDigest := (tokenDigest 13).val
  disposition := .notApplied

/-- Its receipt. -/
def notAppliedReadback : Object RecoveredDomainReadbackReceipt :=
  let predecessor := notAppliedInput.predecessor
  let fields : RecoveredDomainReadbackFields := ⟨predecessor.operationIdentityDigest, predecessor.executionPlanDigest,
    predecessor.bindingSetIdentityDigest, recoveringAttempt.boundAttemptDigest, notAppliedInput.durableObservationDigest,
    predecessor.executionPlanDigest, predecessor.bindingSetIdentityDigest, predecessor.boundAttemptDigest,
    predecessor.attemptNonceDigest, predecessor.authorityGrantDigest, predecessor.resumeEpochDigest,
    predecessor.deadlineAtUnixMs, notAppliedInput.readbackContractDigest, notAppliedInput.readbackReferenceDigest,
    notAppliedInput.currentPhysicalEpochDigest, notAppliedInput.disposition⟩
  ⟨2, { fields with readbackReceiptDigest := readbackReceiptDigest fields }⟩

def retryAdmission : Object RecoveredRetryAdmission :=
  ⟨3, recoveredRetryAdmission recoveringAttempt (tokenDigest 6).val notAppliedReadback.value⟩

/-- The calls up to the readback. -/
def readEvents : List RecoveryEvent :=
  [⟨.compilePlan recoveringAttempt.plan.value, .plan recoveringAttempt.plan⟩,
    ⟨.compilePlan retriedAttempt.plan.value, .plan retriedAttempt.plan⟩,
    ⟨.issueReadback recoveringAttempt notAppliedInput, .readback notAppliedReadback⟩]

def compiledTokens : RecoveryTokens :=
  { RecoveryTokens.initial with nextRef := 2, compiledPlans := [retriedAttempt.plan, recoveringAttempt.plan] }

def readTokens : RecoveryTokens := { compiledTokens with nextRef := 3, issuedReadbacks := [notAppliedReadback] }

theorem recoveryRun_read : RecoveryRun readEvents readTokens := by
  have hstart : RecoveryRun [] .initial := .nil rfl
  have hrecovery := hstart.call (.compilePlan recoveringAttempt.plan.value) rfl
  have hsuccessor := hrecovery.call (.compilePlan retriedAttempt.plan.value) rfl
  have hissue : RecoveryStep compiledTokens
      ⟨.issueReadback recoveringAttempt notAppliedInput, .readback notAppliedReadback⟩ readTokens := by
    unfold RecoveryStep
    decide +kernel
  exact hsuccessor.snoc hissue

/-- The calls up to the admission of a retry. -/
def admittedEvents : List RecoveryEvent :=
  readEvents ++ [⟨.admitRetry recoveringAttempt notAppliedReadback, .admitted retryAdmission⟩]

def admittedTokens : RecoveryTokens :=
  { readTokens with nextRef := 4, consumedReadbacks := [notAppliedReadback], issuedAdmissions := [retryAdmission] }

theorem recoveryRun_admitted : RecoveryRun admittedEvents admittedTokens := by
  have hadmit : RecoveryStep readTokens ⟨.admitRetry recoveringAttempt notAppliedReadback, .admitted retryAdmission⟩
      admittedTokens := by
    unfold RecoveryStep
    decide +kernel
  exact recoveryRun_read.snoc hadmit

/-- A readback admits one retry, which is bound once. -/
theorem recoveryRun_lawful_retried :
    RecoveryLaw [⟨.compilePlan recoveringAttempt.plan.value, .plan recoveringAttempt.plan⟩,
      ⟨.compilePlan retriedAttempt.plan.value, .plan retriedAttempt.plan⟩,
      ⟨.issueReadback recoveringAttempt notAppliedInput, .readback notAppliedReadback⟩,
      ⟨.admitRetry recoveringAttempt notAppliedReadback, .admitted retryAdmission⟩,
      ⟨.consumeRetry 1500 retryAdmission retriedAttempt (tokenDigest 13).val, .consumed⟩] :=
  recoveryRun_lawful (RecoveryRun.call recoveryRun_admitted
    (.consumeRetry 1500 retryAdmission retriedAttempt (tokenDigest 13).val) (by decide +kernel))

/-- A join of the readback under this contract. -/
def joinUnder (contract : Text) : RecoveryCall :=
  .joinTerminal recoveringAttempt notAppliedReadback contract (tokenDigest 12).val

theorem joinable_read : Joinable readTokens recoveringAttempt notAppliedReadback := by
  refine ⟨?_, ?_, List.mem_cons_self, List.not_mem_nil⟩ <;> decide

/-- A join under a contract that is not a digest throws and spends the readback: the corrected join, which would have
gone through before, throws as well. -/
theorem perform_joinTerminal_not_frame :
    ∃ events tokens, RecoveryRun events tokens ∧
      (∃ receipt, (perform tokens (joinUnder (tokenDigest 11).val)).1 = .joined receipt) ∧
      (∃ message, (perform tokens (joinUnder [])).1 = .thrown message) ∧
      ¬SameTokens tokens (perform tokens (joinUnder [])).2 ∧
      ∃ message, (perform (perform tokens (joinUnder [])).2 (joinUnder (tokenDigest 11).val)).1 = .thrown message := by
  have hnot : ¬(isDigest [] ∧ isDigest (tokenDigest 12).val) := fun h => absurd h.1 (by decide)
  have hspends := perform_joinTerminal_spends joinable_read hnot
  have hjoin : joinUnder [] = .joinTerminal recoveringAttempt notAppliedReadback [] (tokenDigest 12).val := rfl
  rw [← hjoin] at hspends
  obtain ⟨hthrown, hspent⟩ := hspends
  refine ⟨readEvents, readTokens, recoveryRun_read, ?_, hthrown, fun hsame => ?_, ?_⟩
  · exact perform_joinTerminal_joins joinable_read (tokenDigest 11).property (tokenDigest 12).property
  · exact Joinable.fresh joinable_read ((hsame.consumedReadbacks notAppliedReadback).mp hspent)
  · have hagain : joinUnder (tokenDigest 11).val =
        .joinTerminal recoveringAttempt notAppliedReadback (tokenDigest 11).val (tokenDigest 12).val := rfl
    rw [hagain]
    exact perform_joinTerminal_refused hspent

end Example

end SecPlatform.Execution
