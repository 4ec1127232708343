import SecPlatform.VerificationAction.Lemmas.Claims

/-!
# What each call keeps

Every call on an Action, from its first operation to its last: what it changes under the lock, what holds before
a commit and a renewal, and what an acquisition knows that succeeds.
-/

namespace SecPlatform.VerificationAction

open Contracts Procedure Reliance

variable [Sha256] [DateArithmetic] {actionKey : VerificationActionKeyDigest}
  {permitted : Permission ActionFiles (ActionCall actionKey) FileRequest FileAnswer} {i : Nat}
  {call : ActionCall actionKey} {history : List (Calls.Event FileRequest FileAnswer)} {s : ActionFiles}

/-- A part of which nothing is said but that it keeps the relation. -/
abbrev Anything {α : Type} : Post α := fun _ _ _ => True

/-! ## Giving a claim up -/

theorem keeps_releaseUnderLock {token : Text} (hlock : s.lock = some i) :
    (filesReliance actionKey permitted).Keeps i call (Locked i fun _ => True) history s
      (releaseUnderLock actionKey token) := by
  unfold releaseUnderLock
  have hend {history' s'} {outcome : Except ActionFailure Bool} (h : s'.lock = some i) :
      Locked i (fun _ => True) history' s' outcome := ⟨h, fun _ _ => trivial⟩
  refine keeps_procedure_bind (keeps_readClaim (fun _ s₁ hrely => ?_) (fun _ s₁ text claim _ hrely _ _ _ => ?_)
    fun _ _ _ hrely => hend (hrely.lock hlock))
  · exact keeps_pure (hend (hrely.lock hlock))
  · have hlock₁ := hrely.lock hlock
    refine keeps_result_bind (fun owner _ => ?_) fun _ _ => hend hlock₁
    refine keeps_result_bind (fun _ _ => ?_) fun _ _ => hend hlock₁
    refine keeps_procedure_bind (keeps_deleteClaim hlock₁ fun _ s₂ outcome hlock₂ => ?_)
    cases outcome with
    | ok _ => exact keeps_pure (hend hlock₂)
    | error e => exact hend hlock₂

theorem keeps_release {token : Text} :
    (filesReliance actionKey permitted).Keeps i call Anything history s (releaseVerificationActionClaim actionKey token) := by
  unfold releaseVerificationActionClaim
  refine keeps_procedure_bind (keeps_withRecoveryLock (fun _ s₁ _ hlock => keeps_releaseUnderLock hlock)
    (fun _ _ _ _ => keeps_pure trivial) fun _ _ _ => trivial)

theorem keeps_settleUnderLock {expectedOwner : OwnerToken} (hlock : s.lock = some i) :
    (filesReliance actionKey permitted).Keeps i call (Locked i fun _ => True) history s
      (settleUnderLock actionKey expectedOwner) := by
  unfold settleUnderLock
  have hend {history' s'} {outcome : Except ActionFailure VerificationActionClaimSettlementDisposition}
      (h : s'.lock = some i) : Locked i (fun _ => True) history' s' outcome := ⟨h, fun _ _ => trivial⟩
  refine keeps_procedure_bind (keeps_readClaim (fun _ s₁ hrely => ?_) (fun _ s₁ text claim _ hrely _ _ _ => ?_)
    fun _ _ _ hrely => hend (hrely.lock hlock))
  · exact keeps_pure (hend (hrely.lock hlock))
  · have hlock₁ := hrely.lock hlock
    dsimp only
    split
    · exact keeps_pure (hend hlock₁)
    · refine keeps_procedure_bind (keeps_deleteClaim hlock₁ fun _ s₂ outcome hlock₂ => ?_)
      cases outcome with
      | ok _ => exact keeps_pure (hend hlock₂)
      | error e => exact hend hlock₂

theorem keeps_settle {token : Text} :
    (filesReliance actionKey permitted).Keeps i call Anything history s
      (settleVerificationActionClaimIfOwned actionKey token) := by
  unfold settleVerificationActionClaimIfOwned
  refine keeps_result_bind (fun expectedOwner _ => ?_) fun _ _ => trivial
  exact keeps_procedure_bind (keeps_withRecoveryLock (fun _ s₁ _ hlock => keeps_settleUnderLock hlock)
    (fun _ _ _ _ => keeps_result trivial) fun _ _ _ => trivial)

/-! ## Working under a claim -/

/-- A claim that its owner reads under the lock is the one in the file, and has not expired. -/
theorem keeps_readOwnedClaim {token now : Text} (hlock : s.lock = some i) {Q : Post (Option VerificationActionClaim)}
    (hnone : ∀ history' s', s'.lock = some i → Q history' s' (.ok none))
    (hsome : ∀ history' s' text claim, s'.lock = some i → s'.claim = some text → parseClaim text actionKey = .ok claim →
      claim.ownerToken.val = token → now < claim.expiresAt → Q history' s' (.ok (some claim)))
    (herror : ∀ history' s' e, s'.lock = some i → Q history' s' (.error e)) :
    (filesReliance actionKey permitted).Keeps i call Q history s (readOwnedClaim actionKey token now) := by
  unfold readOwnedClaim
  refine keeps_procedure_bind (keeps_readClaim (fun _ s₁ hrely => ?_) (fun _ s₁ text claim _ hrely _ htext hclaim => ?_)
    fun _ _ _ hrely => herror _ _ _ (hrely.lock hlock))
  · refine keeps_result_bind (fun _ _ => keeps_result ?_) fun _ _ => herror _ _ _ (hrely.lock hlock)
    exact hnone _ _ (hrely.lock hlock)
  · have hlock₁ := hrely.lock hlock
    refine keeps_result_bind (fun time htime => keeps_result ?_) fun _ _ => herror _ _ _ hlock₁
    have htime := assertIsoDate_str.mp htime
    unfold ownedClaim
    dsimp only
    cases howner : ownerToken (.str token) with
    | error e => exact herror _ _ _ hlock₁
    | ok owner =>
        rw [ok_bind, Option.filter]
        split
        · rename_i hvalid
          obtain ⟨hname, hlive⟩ := of_decide_eq_true hvalid
          exact hsome _ _ text claim hlock₁ htext hclaim (hname ▸ ownerToken_str.mp howner) (htime ▸ hlive)
        · exact hnone _ _ hlock₁

theorem keeps_renewUnderLock {input : RenewInput} (hcall : call = .renew input) (hlock : s.lock = some i) :
    (filesReliance actionKey permitted).Keeps i call (Locked i fun _ => True) history s
      (renewUnderLock actionKey input) := by
  unfold renewUnderLock
  have hend {history' s'} {outcome : Except ActionFailure Bool} (h : s'.lock = some i) :
      Locked i (fun _ => True) history' s' outcome := ⟨h, fun _ _ => trivial⟩
  refine keeps_procedure_bind (keeps_readOwnedClaim hlock (fun _ s₁ hlock₁ => keeps_pure (hend hlock₁))
    (fun _ s₁ text existing hlock₁ htext hclaim _ _ => ?_) fun _ _ _ hlock₁ => hend hlock₁)
  refine keeps_result_bind (fun extension hextension => ?_) fun _ _ => hend hlock₁
  -- nobody else takes the claim away before it is replaced
  have hstable : Stable actionKey i fun s => s.lock = some i ∧ s.claim = some text := stable_claimed text
  have hclaimed := hstable.others
  refine keeps_procedure_bind (keeps_attempt (fun s₂ _ hrely => ?_) fun s₂ answer s₃ hinv hrely _ hperform => ?_)
  · rw [hcall]
    exact ⟨text, existing, extension, (hclaimed _ _ hrely ⟨hlock₁, htext⟩).2, hclaim, hextension, rfl⟩
  · have hlock₂ := hrely.lock hlock₁
    cases answer with
    | ok _ =>
        obtain rfl := hperform
        exact ⟨allows_claim hinv (.inl hlock₂), keeps_pure (hend hlock₂)⟩
    | error e =>
        rcases hperform with rfl | ⟨_, rfl⟩
        · exact ⟨allows_same (r := filesReliance actionKey permitted) hinv, hend hlock₂⟩
        · exact ⟨allows_claim hinv (.inl hlock₂), hend hlock₂⟩

theorem keeps_renew {input : RenewInput} (hcall : call = .renew input) :
    (filesReliance actionKey permitted).Keeps i call Anything history s (renewVerificationActionClaim actionKey input) := by
  unfold renewVerificationActionClaim
  exact keeps_procedure_bind (keeps_withRecoveryLock (fun _ s₁ _ hlock => keeps_renewUnderLock hcall hlock)
    (fun _ _ _ _ => keeps_pure trivial) fun _ _ _ => trivial)

variable [LocaleText] {evidence : RetainedEvidence}

/-- An append under a claim: the claim is still there when the event is written. -/
theorem keeps_commitUnderLock {token now : Text} {input : AppendInput actionKey}
    (hcall : ∀ s history expectedText text, OwnedBy actionKey s token now →
      Asserted s call history (.appendJournal expectedText text)) (hlock : s.lock = some i) :
    (filesReliance actionKey permitted).Keeps i call (Locked i fun _ => True) history s
      (commitUnderLock evidence token now input) := by
  unfold commitUnderLock
  have hend {history' s'} {outcome : Except ActionFailure (Option VerificationActionJournalEvent)}
      (h : s'.lock = some i) : Locked i (fun _ => True) history' s' outcome := ⟨h, fun _ _ => trivial⟩
  refine keeps_procedure_bind (keeps_readOwnedClaim hlock (fun _ s₁ hlock₁ => keeps_pure (hend hlock₁))
    (fun _ s₁ text claim hlock₁ htext hclaim howner hlive => ?_) fun _ _ _ hlock₁ => hend hlock₁)
  refine keeps_procedure_bind (keeps_append (stable_claimed text) ⟨hlock₁, htext⟩
    (fun _ s₂ _ _ hs₂ => hcall s₂ _ _ _ ⟨text, claim, hs₂.2, hclaim, howner, hlive⟩)
    (fun _ s₂ event hs₂ _ => ?_) fun _ _ _ hs₂ => hend hs₂.1)
  refine keeps_procedure_bind (keeps_deleteClaim hs₂.1 fun _ s₃ outcome hlock₃ => ?_)
  cases outcome with
  | ok _ => exact keeps_pure (hend hlock₃)
  | error e => exact hend hlock₃

theorem keeps_commitTerminal {input : CommitTerminalInput actionKey} (hcall : call = .commitTerminal input) :
    (filesReliance actionKey permitted).Keeps i call Anything history s
      (commitVerificationActionTerminalUnderClaim evidence input) := by
  unfold commitVerificationActionTerminalUnderClaim
  refine keeps_result_bind (fun _ _ => ?_) fun _ _ => trivial
  exact keeps_procedure_bind (keeps_withRecoveryLock
    (fun _ s₁ _ hlock => keeps_commitUnderLock (fun _ _ _ _ h => hcall ▸ h) hlock)
    (fun _ _ _ _ => keeps_pure trivial) fun _ _ _ => trivial)

theorem keeps_commitRevocation {input : CommitRevocationInput actionKey} (hcall : call = .commitRevocation input) :
    (filesReliance actionKey permitted).Keeps i call Anything history s
      (commitVerificationActionRevocationUnderClaim evidence input) := by
  unfold commitVerificationActionRevocationUnderClaim
  refine keeps_result_bind (fun _ _ => ?_) fun _ _ => trivial
  exact keeps_procedure_bind (keeps_withRecoveryLock
    (fun _ s₁ _ hlock => keeps_commitUnderLock (fun _ _ _ _ h => hcall ▸ h) hlock)
    (fun _ _ _ _ => keeps_pure trivial) fun _ _ _ => trivial)

/-! ## Revoking and recovering -/

theorem keeps_revokeUnderLock {input : RevokeInput actionKey} (hcall : call = .revoke input) (hlock : s.lock = some i) :
    (filesReliance actionKey permitted).Keeps i call (Locked i fun _ => True) history s
      (revokeUnderLock evidence input) := by
  unfold revokeUnderLock
  have hend {history' s'} {outcome : Except ActionFailure VerificationActionJournalReadback}
      (h : s'.lock = some i) : Locked i (fun _ => True) history' s' outcome := ⟨h, fun _ _ => trivial⟩
  refine keeps_procedure_bind (keeps_readJournal (fun s₁ generation _ hrely _ => ?_)
    fun _ _ _ hrely => hend (hrely.lock hlock))
  have hlock₁ := hrely.lock hlock
  dsimp only
  split
  · exact keeps_pure (hend hlock₁)
  · refine keeps_procedure_bind (keeps_append stable_locked hlock₁ (fun _ _ _ _ _ => hcall ▸ trivial)
      (fun _ s₂ event hlock₂ _ => ?_) fun _ _ _ hlock₂ => hend hlock₂)
    refine keeps_procedure_bind (keeps_deleteClaim hlock₂ fun _ s₃ outcome hlock₃ => ?_)
    cases outcome with
    | error e => exact hend hlock₃
    | ok _ =>
        exact keeps_readJournal (fun s₄ _ _ hrely₄ _ => hend (hrely₄.lock hlock₃))
          fun _ _ _ hrely₄ => hend (hrely₄.lock hlock₃)

theorem keeps_revoke {input : RevokeInput actionKey} (hcall : call = .revoke input) :
    (filesReliance actionKey permitted).Keeps i call Anything history s (revokeVerificationActionClaim evidence input) := by
  unfold revokeVerificationActionClaim
  refine keeps_result_bind (fun _ _ => ?_) fun _ _ => trivial
  exact keeps_procedure_bind (keeps_withRecoveryLock (fun _ s₁ _ hlock => keeps_revokeUnderLock hcall hlock)
    (fun _ _ _ _ => keeps_result trivial) fun _ _ _ => trivial)

/-- An outcome that does not hand the claim over. -/
def Unacquired (outcome : Except ActionFailure VerificationActionClaimOutcome) : Prop :=
  ∀ o, outcome = .ok o → o.disposition ≠ .acquired

omit [DateArithmetic] [LocaleText] in
theorem unacquired_of_ne {o : VerificationActionClaimOutcome} (h : o.disposition ≠ .acquired) : Unacquired (.ok o) :=
  fun _ ho => Except.ok.inj ho ▸ h

omit [DateArithmetic] [LocaleText] in
theorem unacquired_error (e : ActionFailure) : Unacquired (.error e) := by
  intro o h
  cases h

theorem keeps_cancelAbandoned {action : ActionOf actionKey} {lease : VerificationActionClaim}
    {latestState : Option VerificationActionJournalState} {current : Option VerificationActionClaim}
    (hcall : ∀ s history expectedText text, Asserted s call history (.appendJournal expectedText text))
    (hlock : s.lock = some i) :
    (filesReliance actionKey permitted).Keeps i call (fun _ s outcome => s.lock = some i ∧ Unacquired outcome) history s
      (cancelAbandoned evidence action lease latestState current) := by
  unfold cancelAbandoned
  refine keeps_procedure_bind (keeps_append stable_locked hlock (fun _ _ _ _ _ => hcall _ _ _ _)
    (fun _ s₁ event hlock₁ _ => ?_) fun _ _ _ hlock₁ => ⟨hlock₁, unacquired_error _⟩)
  have hend {s' : ActionFiles} (h : s'.lock = some i) : s'.lock = some i ∧ Unacquired
      (.ok ⟨.blocked, current, none, some (Text.cat ["abandoned ", stateText latestState,
        " Action was durably cancelled; a new Action identity is required"])⟩) :=
    ⟨h, unacquired_of_ne nofun⟩
  cases current with
  | none => exact keeps_pure (hend hlock₁)
  | some claim =>
      refine keeps_procedure_bind (keeps_procedure_bind (keeps_deleteClaim hlock₁ fun _ s₂ outcome hlock₂ => ?_))
      cases outcome with
      | error e => exact ⟨hlock₂, unacquired_error _⟩
      | ok _ => exact keeps_pure (keeps_pure (hend hlock₂))

theorem keeps_recoverUnderLock {action : ActionOf actionKey} {lease : VerificationActionClaim}
    (hcall : ∀ s history expectedText text, Asserted s call history (.appendJournal expectedText text))
    (hlock : s.lock = some i) :
    (filesReliance actionKey permitted).Keeps i call (fun _ s outcome => s.lock = some i ∧ Unacquired outcome) history s
      (recoverUnderLock evidence action lease) := by
  unfold recoverUnderLock
  have hend {s' : ActionFiles} {o : VerificationActionClaimOutcome} (h : s'.lock = some i) (ho : o.disposition ≠ .acquired) :
      s'.lock = some i ∧ Unacquired (.ok o) := ⟨h, unacquired_of_ne ho⟩
  refine keeps_procedure_bind (keeps_readJournal (fun s₁ generation _ hrely _ => ?_)
    fun _ _ _ hrely => ⟨hrely.lock hlock, unacquired_error _⟩)
  have hlock₁ := hrely.lock hlock
  dsimp only
  split
  · exact keeps_pure (hend hlock₁ nofun)
  · refine keeps_procedure_bind ((keeps_readClaimOrUnreadable (Q := fun _ s' _ => s'.lock = some i)
      (fun _ _ _ _ _ hrely₂ _ _ _ => hrely₂.lock hlock₁) fun _ _ _ hrely₂ _ => hrely₂.lock hlock₁).mono ?_)
    intro history₂ s₂ outcome hlock₂
    cases outcome with
    | error e => exact ⟨hlock₂, unacquired_error _⟩
    | ok read =>
        cases read with
        | none => exact keeps_pure (hend hlock₂ nofun)
        | some current =>
            dsimp only
            split
            · exact keeps_pure (hend hlock₂ nofun)
            · split
              · exact keeps_pure (hend hlock₂ nofun)
              · exact keeps_cancelAbandoned hcall hlock₂

theorem keeps_recoverAbandoned {action : ActionOf actionKey} {lease : VerificationActionClaim}
    (hcall : ∀ s history expectedText text, Asserted s call history (.appendJournal expectedText text)) :
    (filesReliance actionKey permitted).Keeps i call (fun _ _ outcome => Unacquired outcome) history s
      (recoverAbandoned evidence action lease) := by
  unfold recoverAbandoned
  refine keeps_procedure_bind ((keeps_readClaimOrUnreadable (Q := fun _ _ _ => True)
    (fun _ _ _ _ _ _ _ _ _ => trivial) fun _ _ _ _ _ => trivial).mono ?_)
  intro history₁ s₁ outcome _
  cases outcome with
  | error e => exact unacquired_error _
  | ok read =>
      cases read with
      | none => exact keeps_pure (unacquired_of_ne nofun)
      | some existing =>
          dsimp only
          split
          · exact keeps_pure (unacquired_of_ne nofun)
          · refine keeps_procedure_bind (keeps_withRecoveryLock
              (R := fun o : VerificationActionClaimOutcome => o.disposition ≠ .acquired)
              (fun _ s₂ _ hlock => keeps_recoverUnderLock hcall hlock)
              (fun _ _ recovered hrecovered => ?_) fun _ _ _ => unacquired_error _)
            cases recovered with
            | none => exact keeps_pure (unacquired_of_ne nofun)
            | some o => exact keeps_pure (unacquired_of_ne (hrecovered o rfl))

/-! ## Acquiring -/

/-- The request by which an acquisition gets the claim: the creation, or the reading of a claim that is there. -/
def Decides (history : List (Calls.Event FileRequest FileAnswer)) (k : FileRequest) : Prop :=
  (∃ text, k = .createClaim text) ∨ (k = .readClaim ∧ ∃ text, ⟨.createClaim text, .ok false⟩ ∈ history)

/-- What an acquisition that succeeds has seen, and how it finds the files. -/
structure Handed (permitted : Permission ActionFiles (ActionCall actionKey) FileRequest FileAnswer)
    (call : ActionCall actionKey) (history : List (Calls.Event FileRequest FileAnswer)) (s : ActionFiles)
    (claim : VerificationActionClaim) : Prop where
  named : ∃ text, s.claim = some text ∧ (text = claim.source ∨ parseClaim text actionKey = .ok claim)
  seen : ∃ file events later more k s₀, JournalIs actionKey { s with journal := file } events ∧
    settledOutcome (readbackOf events) = none ∧ isUnfinished (readbackOf events).latestState = false ∧
    JournalIs actionKey s (events ++ later) ∧ s₀.journal = s.journal ∧ Decides more k ∧
    permitted s₀ call (history ++ ⟨.observeJournal, .ok file⟩ :: more) k

omit [LocaleText] in
theorem keeps_acquireFresh {lease : VerificationActionClaim} {Q : Post VerificationActionClaimOutcome}
    (hcreate : ∀ s, Asserted s call history (.createClaim lease.source))
    (hcreated : ∀ history' s', FilesHold actionKey s' → Others actionKey i s s' →
      permitted s' call history (.createClaim lease.source) →
      Q history' { s' with claim := some lease.source } (.ok ⟨.acquired, some lease, none, none⟩))
    (hexisting : ∀ history' s' text claim, FilesHold actionKey s' → Others actionKey i s s' →
      permitted s' call (history ++ [⟨.createClaim lease.source, .ok false⟩, ⟨.claimExists, .ok true⟩]) .readClaim →
      s'.claim = some text → parseClaim text actionKey = .ok claim →
      Q history' s' (.ok ⟨.acquired, some claim, none, none⟩))
    (hother : ∀ history' s' outcome, Unacquired outcome → Q history' s' outcome) :
    (filesReliance actionKey permitted).Keeps i call Q history s (acquireFresh actionKey lease) := by
  unfold acquireFresh
  refine keeps_procedure_bind (keeps_attempt (fun s₁ _ _ => hcreate s₁)
    fun s₁ answer s₂ hinv hrely hpermitted hperform => ?_)
  have hallows {value : Bool} (h : effect i s₁ (.createClaim lease.source) value s₂) :
      (filesReliance actionKey permitted).Allows i s₁ s₂ := by
    rcases h with ⟨-, hnone, rfl⟩ | ⟨-, rfl⟩
    · exact allows_claim hinv (.inr hnone)
    · exact allows_same (r := filesReliance actionKey permitted) hinv
  cases answer with
  | error e =>
      rcases hperform with rfl | ⟨value, h⟩
      · exact ⟨allows_same (r := filesReliance actionKey permitted) hinv, hother _ _ _ (unacquired_error _)⟩
      · exact ⟨hallows h, hother _ _ _ (unacquired_error _)⟩
  | ok created =>
      refine ⟨hallows hperform, ?_⟩
      rcases hperform with ⟨rfl, -, rfl⟩ | ⟨rfl, rfl⟩
      · exact keeps_pure (hcreated _ s₁ hinv hrely hpermitted)
      · refine keeps_procedure_bind (keeps_readClaimOrUnreadable
          (fun _ s₂ text claim hinv₂ hrely₂ hpermitted₂ htext hclaim => ?_) fun _ s₂ read _ hread => ?_)
        · dsimp only
          unfold existingOutcome
          split
          · refine keeps_pure (hexisting _ s₂ text claim hinv₂ (hrely.trans hrely₂) ?_ htext hclaim)
            simpa using hpermitted₂
          · split <;> exact keeps_pure (hother _ _ _ (unacquired_of_ne nofun))
        · cases read with
          | none => exact keeps_pure (hother _ _ _ (unacquired_of_ne nofun))
          | some current =>
              obtain rfl : current = none := hread
              exact hother _ _ _ (unacquired_error _)

omit [DateArithmetic] [LocaleText] in
theorem settledOutcome_some {journal : VerificationActionJournalReadback} {o : VerificationActionClaimOutcome}
    (h : settledOutcome journal = some o) : o.disposition ≠ .acquired := by
  unfold settledOutcome at h
  split at h
  · cases h
    exact nofun
  · split at h
    · cases h
      exact nofun
    · cases h

omit [DateArithmetic] [LocaleText] in
theorem settledOutcome_none {journal : VerificationActionJournalReadback} (h : settledOutcome journal = none) :
    journal.recoveryDisposition = none := by
  unfold settledOutcome at h
  split at h
  · cases h
  · rename_i hrecovery
    exact not_ne_iff.mp hrecovery

theorem keeps_acquire {input : AcquireInput actionKey} {Q : Post VerificationActionClaimOutcome}
    (hcall : ∀ s history expectedText text, Asserted s call history (.appendJournal expectedText text))
    (hcreate : ∀ s history claim, newClaim actionKey input.ownerToken input.now
      (input.leaseDurationMs.getD (.ofNat 300000)) = .ok claim → Asserted s call history (.createClaim claim.source))
    (hacquired : ∀ history' s' claim, Handed permitted call history s' claim →
      Q history' s' (.ok ⟨.acquired, some claim, none, none⟩))
    (hother : ∀ history' s' outcome, Unacquired outcome → Q history' s' outcome) :
    (filesReliance actionKey permitted).Keeps i call Q history s (acquireVerificationActionClaim evidence input) := by
  have herror {history' s'} (e : ActionFailure) : Q history' s' (.error e) := hother _ _ _ (unacquired_error e)
  unfold acquireVerificationActionClaim
  rw [reparseAction_toValue]
  refine keeps_result_bind (fun action haction => ?_) fun _ _ => herror _
  obtain rfl := Except.ok.inj haction
  rw [input.action.2]
  refine keeps_procedure_bind (keeps_readJournal (fun s₁ generation _ _ hread => ?_) fun _ _ _ _ => herror _)
  dsimp only
  split
  · rename_i o houtcome
    exact keeps_pure (hother _ _ _ (unacquired_of_ne (settledOutcome_some houtcome)))
  · rename_i hsettled
    have hreads := reads_of_readGeneration hread (settledOutcome_none hsettled)
    refine keeps_result_bind (fun lease hlease => ?_) fun _ _ => herror _
    refine keeps_procedure_bind (keeps_lookAt looks_ensureDirectory trivial
      (fun s₂ _ _ hrely₂ _ _ => ?_) fun _ _ _ _ => herror _)
    dsimp only
    split
    · exact (keeps_recoverAbandoned hcall).mono fun _ _ _ h => hother _ _ _ h
    · rename_i hfresh
      -- the journal has only grown since it was read
      have hseen {s' s₀ : ActionFiles} {more k} (hrely : Others actionKey i s₂ s₀) (hjournal : s₀.journal = s'.journal)
          (hdecides : Decides more k)
          (hpermitted : permitted s₀ call (history ++ ⟨.observeJournal, .ok s₁.journal⟩ :: more) k) {claim}
          (hnamed : ∃ text, s'.claim = some text ∧ (text = claim.source ∨ parseClaim text actionKey = .ok claim)) :
          Handed permitted call history s' claim := by
        obtain ⟨later, hlater⟩ := (hrely₂.trans hrely).journal _ hreads.journalIs
        refine ⟨hnamed, s₁.journal, _, later, more, k, s₀, ⟨hreads.text, hreads.chained⟩, ?_, ?_, ?_, hjournal,
          hdecides, hpermitted⟩
        · rwa [← hreads.readback]
        · rw [← hreads.readback]
          exact Bool.eq_false_iff.mpr hfresh
        · exact ⟨by rw [ActionFiles.journalText, ← hjournal]; exact hlater.text, hlater.chained⟩
      refine keeps_acquireFresh (fun _ => hcreate _ _ _ hlease) (fun _ s₃ _ hrely₃ hpermitted => hacquired _ _ _ ?_)
        (fun _ s₃ text claim _ hrely₃ hpermitted htext hclaim => hacquired _ _ _ ?_) hother
      · rw [List.append_assoc] at hpermitted
        exact @hseen { s₃ with claim := some lease.source } s₃ _ _ hrely₃ rfl (.inl ⟨_, rfl⟩) hpermitted lease
          ⟨_, rfl, .inl rfl⟩
      · rw [List.append_assoc, List.append_assoc] at hpermitted
        exact hseen hrely₃ rfl (.inr ⟨rfl, lease.source, by simp⟩) hpermitted ⟨_, htext, .inr hclaim⟩

/-! ## The admission of an execution -/

/-- A run that calls the executor has created the journal. -/
def Started (i : Nat) : Post RunAdmission := fun _ s outcome => outcome = .ok .started → s.creator = some i

omit [DateArithmetic] [LocaleText] in
theorem concurrentAdmission_some {concurrent : VerificationActionJournalReadback} {admission : RunAdmission}
    (h : concurrentAdmission actionKey concurrent = some admission) : admission ≠ .started := by
  unfold concurrentAdmission at h
  split at h
  · cases h
    exact nofun
  · cases h

theorem keeps_appendState {input : RunInput actionKey} {state : VerificationActionJournalState} {P : ActionFiles → Prop}
    (hcall : ∀ s history expectedText text, Asserted s call history (.appendJournal expectedText text))
    (hP : Stable actionKey i P) (hs : P s) {Q : Post Unit} (hok : ∀ history' s', P s' → Added i s' state → Q history' s' (.ok ()))
    (herror : ∀ history' s' e, P s' → Q history' s' (.error e)) :
    (filesReliance actionKey permitted).Keeps i call Q history s (appendState evidence input state) := by
  unfold appendState callerTime
  have happend {history' s'} {recordedAt : Option Text} (hs' : P s') :
      (filesReliance actionKey permitted).Keeps i call Q history' s' (show ActionProcedure Unit from do
        let _ ← appendVerificationActionJournalEvent evidence ⟨input.action, state, recordedAt, .null, none⟩
        return ()) :=
    keeps_procedure_bind (keeps_append hP hs' (fun _ _ _ _ _ => hcall _ _ _ _)
      (fun _ s₂ event hs₂ hadded => keeps_pure (hok _ _ hs₂ hadded)) fun _ _ _ hs₂ => herror _ _ _ hs₂)
  split
  · refine keeps_procedure_bind (keeps_procedure_bind (keeps_lookAt looks_now trivial
      (fun s₁ now _ hrely _ _ => keeps_pure ?_) fun _ _ _ hrely => herror _ _ _ (hP.others _ _ hrely hs)))
    exact happend (hP.others _ _ hrely hs)
  · exact keeps_procedure_bind (keeps_pure (happend hs))

theorem keeps_appendQueued {input : RunInput actionKey}
    (hcall : ∀ s history expectedText text, Asserted s call history (.appendJournal expectedText text))
    {Q : Post (Option RunAdmission)} (hnone : ∀ history' s', s'.creator = some i → Q history' s' (.ok none))
    (hsome : ∀ history' s' admission, admission ≠ .started → Q history' s' (.ok (some admission)))
    (herror : ∀ history' s' e, Q history' s' (.error e)) :
    (filesReliance actionKey permitted).Keeps i call Q history s (appendQueued evidence input) := by
  unfold appendQueued
  have hrejoin (history' s' e) : (filesReliance actionKey permitted).Keeps i call Q history' s'
      (rejoin evidence actionKey e) := by
    unfold rejoin
    refine keeps_procedure_bind (keeps_readJournal (fun s₁ generation _ _ _ => ?_) fun _ _ _ _ => herror _ _ _)
    dsimp only
    split
    · rename_i admission hadmission
      exact keeps_pure (hsome _ _ _ (concurrentAdmission_some hadmission))
    · exact herror _ _ _
  exact keeps_orElse (keeps_procedure_bind (keeps_appendState hcall stable_true trivial
    (fun _ s₁ _ hadded => keeps_pure (hnone _ _ (hadded rfl))) fun _ _ _ _ => hrejoin _ _ _))

theorem keeps_useClaim {input : RunInput actionKey}
    (hcall : ∀ s history expectedText text, Asserted s call history (.appendJournal expectedText text)) :
    (filesReliance actionKey permitted).Keeps i call (Started i) history s (useClaim evidence input) := by
  unfold useClaim
  refine keeps_procedure_bind (keeps_readJournal (fun s₁ generation _ _ _ => ?_) fun _ _ _ _ => nofun)
  have hsettled {history' s' o} : Started i history' s' (.ok (.settled o)) := nofun
  have herror {history' s' e} : Started i history' s' (.error e) := nofun
  dsimp only
  split
  · exact keeps_pure hsettled
  · exact keeps_pure hsettled
  · exact keeps_pure hsettled
  · exact keeps_pure hsettled
  · exact herror
  · exact herror
  · exact keeps_pure hsettled
  · exact keeps_pure hsettled
  · refine keeps_procedure_bind (keeps_appendQueued hcall (fun _ s₂ hcreator => ?_)
      (fun _ s₂ admission hne => keeps_pure fun h => absurd (Except.ok.inj h) hne) fun _ _ _ => herror)
    exact keeps_procedure_bind (keeps_appendState hcall stable_created hcreator
      (fun _ _ hcreator₃ _ => keeps_pure fun _ => hcreator₃) fun _ _ _ _ => herror)

theorem keeps_admitExecution {input : RunInput actionKey} (hinput : call = .run input) :
    (filesReliance actionKey permitted).Keeps i call (Started i) history s (admitExecution evidence input) := by
  have hcall (s history expectedText text) : Asserted s call history (.appendJournal expectedText text) := hinput ▸ trivial
  have hsettled {history' s' o} : Started i history' s' (.ok (.settled o)) := nofun
  have herror {history' s' e} : Started i history' s' (.error e) := nofun
  have huse (claim) {history' s'} :
      (filesReliance actionKey permitted).Keeps i call (Started i) history' s' (useOutcome evidence input claim) := by
    unfold useOutcome
    split
    · exact keeps_procedure_bind (keeps_readJournal (fun _ _ _ _ _ => keeps_pure hsettled) fun _ _ _ _ => herror)
    · unfold joinedAdmission
      split
      · exact keeps_pure hsettled
      · exact keeps_pure nofun
    · exact keeps_pure hsettled
    · exact keeps_pure hsettled
    · exact keeps_useClaim hcall
  unfold admitExecution
  refine keeps_procedure_bind (keeps_readJournal (fun s₁ generation _ _ _ => ?_) fun _ _ _ _ => herror)
  dsimp only
  split
  · exact keeps_pure hsettled
  · have hclock {history' s'} (recordedAt : Option Text) : (filesReliance actionKey permitted).Keeps i call (Started i)
        history' s' (show ActionProcedure RunAdmission from do
          let now ← recordedAtOrNow recordedAt
          let claim ← acquireVerificationActionClaim evidence ⟨input.action, input.ownerToken, now, input.leaseDurationMs⟩
          useOutcome evidence input claim) := by
      refine keeps_procedure_bind (keeps_recordedAtOrNow stable_true trivial fun _ s₂ outcome _ => ?_)
      cases outcome with
      | error e => exact herror
      | ok now =>
          refine keeps_procedure_bind (keeps_acquire hcall (fun _ _ _ h => hinput ▸ ⟨_, _, h, rfl⟩)
            (fun _ _ _ _ => huse _) fun _ _ outcome _ => ?_)
          cases outcome with
          | error e => exact herror
          | ok claim => exact huse claim
    unfold callerTime
    split
    · exact keeps_procedure_bind (keeps_procedure_bind (keeps_lookAt looks_now trivial
        (fun _ _ _ _ _ _ => keeps_pure (hclock _)) fun _ _ _ _ => herror))
    · exact keeps_procedure_bind (keeps_pure (hclock _))

/-! ## Every call -/

/-- What is said of the end of a call. -/
def CallPost (permitted : Permission ActionFiles (ActionCall actionKey) FileRequest FileAnswer) (i : Nat)
    (call : ActionCall actionKey) : Post ActionOutcome :=
  fun _ s outcome => match outcome with
    | .ok (.acquired o) => o.disposition = .acquired → ∃ claim, o.claim = some claim ∧ Handed permitted call [] s claim
    | .ok (.ran .started) => s.creator = some i
    | _ => True

theorem keeps_callProgram (call : ActionCall actionKey) :
    (filesReliance actionKey permitted).Keeps i call (CallPost permitted i call) [] s (callProgram evidence call) := by
  cases call with
  | acquire input =>
      refine keeps_procedure_bind (keeps_acquire (fun _ _ _ _ => trivial) (fun _ _ _ h => ⟨_, h, rfl⟩)
        (fun _ _ claim h => keeps_pure fun _ => ⟨claim, rfl, h⟩) fun _ _ outcome h => ?_)
      cases outcome with
      | error e => trivial
      | ok o => exact keeps_pure fun ho => absurd ho (h o rfl)
  | release token => exact keeps_procedure_bind (keeps_release.mono fun _ _ outcome _ => by cases outcome <;> trivial)
  | settle token => exact keeps_procedure_bind (keeps_settle.mono fun _ _ outcome _ => by cases outcome <;> trivial)
  | renew input => exact keeps_procedure_bind ((keeps_renew rfl).mono fun _ _ outcome _ => by cases outcome <;> trivial)
  | commitTerminal input =>
      exact keeps_procedure_bind ((keeps_commitTerminal rfl).mono fun _ _ outcome _ => by cases outcome <;> trivial)
  | commitRevocation input =>
      exact keeps_procedure_bind ((keeps_commitRevocation rfl).mono fun _ _ outcome _ => by cases outcome <;> trivial)
  | revoke input =>
      exact keeps_procedure_bind ((keeps_revoke rfl).mono fun _ _ outcome _ => by cases outcome <;> trivial)
  | append input =>
      exact keeps_procedure_bind (keeps_append stable_true trivial (fun _ _ _ _ _ => trivial)
        (fun _ _ _ _ _ => keeps_pure trivial) fun _ _ _ _ => trivial)
  | run input =>
      refine keeps_procedure_bind ((keeps_admitExecution rfl).mono fun _ s outcome h => ?_)
      cases outcome with
      | error e => trivial
      | ok admission =>
          cases admission with
          | started => exact keeps_pure (h rfl)
          | settled | waits => exact keeps_pure trivial

end SecPlatform.VerificationAction
