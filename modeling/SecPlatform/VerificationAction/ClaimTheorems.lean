import SecPlatform.VerificationAction.JournalTheorems
import SecPlatform.VerificationAction.Lemmas.ClaimCalls

/-!
# Any number of calls on one Action

What the journal and the claim are worth in every interleaving: the order of the events, the claim under which a
result is committed, the one run that calls the executor, the moment at which a claim is handed over, and the
claims that are written.
-/

namespace SecPlatform.VerificationAction

open Contracts Reliance

section Interleavings

variable [Sha256] [LocaleText] [DateArithmetic] {evidence : RetainedEvidence} {actionKey : VerificationActionKeyDigest}

/-- The files before the first call: a journal that is read, or none, and any claim. -/
def Begun (actionKey : VerificationActionKeyDigest) (files : ActionFiles) : Prop :=
  (∃ readback, parseJournalSource actionKey files.journalText = .ok readback) ∧ files.creator = none

omit [LocaleText] [DateArithmetic] in
theorem parseJournalSource_journalIs {files : ActionFiles} {events : List VerificationActionJournalEvent}
    (h : JournalIs actionKey files events) (hlength : events.length ≤ maximumEvents) :
    parseJournalSource actionKey files.journalText = .ok (readbackOf events) := by
  refine parseJournalSource_ok.mpr ⟨rfl, ?_⟩
  by_cases hnil : events = []
  · exact .inl ⟨by rw [h.text, if_pos hnil], hnil⟩
  · exact .inr ⟨journalText events, by rw [h.text, if_neg hnil], parseJournalLines_ok.mpr ⟨hnil, hlength, h.chained, rfl⟩⟩

omit [LocaleText] [DateArithmetic] in
theorem Begun.journalIs {files : ActionFiles} (h : Begun actionKey files) :
    ∃ events, JournalIs actionKey files events ∧ events.length ≤ maximumEvents := by
  obtain ⟨⟨readback, hparse⟩, -⟩ := h
  obtain ⟨-, ⟨hfile, hevents⟩ | ⟨source, hfile, hlines⟩⟩ := parseJournalSource_ok.mp hparse
  · exact ⟨[], ⟨hfile, .nil⟩, Nat.zero_le _⟩
  · obtain ⟨hne, hlength, hchained, rfl⟩ := parseJournalLines_ok.mp hlines
    exact ⟨readback.events, ⟨by rw [hfile, if_neg hne], hchained⟩, hlength⟩

omit [LocaleText] [DateArithmetic] in
/-- A journal that is read has no more lines than the reader admits. -/
theorem count_of_parseJournalSource {source : Text} {readback : VerificationActionJournalReadback}
    (h : parseJournalSource actionKey (some source) = .ok readback) : source.count lineBreak ≤ maximumEvents := by
  obtain ⟨-, ⟨hfile, -⟩ | ⟨_, hfile, hlines⟩⟩ := parseJournalSource_ok.mp h
  · cases hfile
  · obtain rfl := Option.some.inj hfile
    obtain ⟨-, hlength, -, rfl⟩ := parseJournalLines_ok.mp hlines
    rwa [count_journalText]

omit [LocaleText] [DateArithmetic] in
theorem Begun.filesHold {files : ActionFiles} (h : Begun actionKey files) : FilesHold actionKey files where
  journal := h.journalIs.imp fun _ h => h.1
  created := fun hne => absurd h.2 hne

variable {permitted : Permission ActionFiles (ActionCall actionKey) FileRequest FileAnswer}
  {s : ActionProcesses actionKey}

/-- The systems that any calls on the Action lead to. -/
abbrev ReachableCalls (evidence : RetainedEvidence)
    (permitted : Permission ActionFiles (ActionCall actionKey) FileRequest FileAnswer) (s : ActionProcesses actionKey) :
    Prop := Processes.Reachable (callProgram evidence) performFile (Begun actionKey) permitted s

theorem calls_established (h : ReachableCalls evidence permitted s) :
    FilesHold actionKey s.state ∧ ∀ i p, s.all[i]? = some p →
      (filesReliance actionKey permitted).Established (CallPost permitted) i p s.state :=
  reachable_established (fun _ => Begun.filesHold) (fun _ call _ _ => keeps_callProgram call) h

theorem reachable_files (h : ReachableCalls evidence permitted s) : FilesHold actionKey s.state :=
  (calls_established h).1

/-! ## The journal and the commits -/

/-- The order of the events of a journal. -/
structure Ordered (actionKey : VerificationActionKeyDigest) (events : List VerificationActionJournalEvent) : Prop where
  chained : Chained actionKey events
  queued : events.countP (fun event => event.state = .queued) ≤ 1
  terminal : events.countP (fun event => event.state = .terminal) ≤ 1
  closed : ∀ before event later, events = before ++ event :: later → isClosed (some event.state) → later = []

omit [LocaleText] [DateArithmetic] in
theorem Chained.countP_le_one {events : List VerificationActionJournalEvent} (h : Chained actionKey events)
    {state : VerificationActionJournalState} (hstate : ¬Before state state) :
    events.countP (fun event => event.state = state) ≤ 1 := by
  rw [List.countP_eq_length_filter]
  have hpairwise := List.Pairwise.filter (fun event : VerificationActionJournalEvent => event.state = state) h.pairwise
  have hsame : ∀ event ∈ events.filter (fun event => event.state = state), event.state = state :=
    fun event hevent => of_decide_eq_true (List.mem_filter.mp hevent).2
  match hfilter : events.filter (fun event => event.state = state) with
  | [] | [_] => simp [hfilter]
  | a :: b :: rest =>
      rw [hfilter] at hpairwise hsame
      have hbefore := (List.pairwise_cons.mp hpairwise).1 b List.mem_cons_self
      rw [hsame a List.mem_cons_self, hsame b (by simp)] at hbefore
      exact absurd hbefore hstate

omit [LocaleText] [DateArithmetic] in
theorem ordered_of_chained {events : List VerificationActionJournalEvent} (h : Chained actionKey events) :
    Ordered actionKey events where
  chained := h
  queued := h.countP_le_one (by decide)
  terminal := h.countP_le_one (by decide)
  closed := by
    rintro before event later rfl hclosed
    match later with
    | [] => rfl
    | next :: _ =>
        have hbefore := (List.pairwise_cons.mp (List.pairwise_append.mp h.pairwise).2.1).1 next List.mem_cons_self
        have hnone : isClosed (some event.state) = true → ¬Before event.state next.state := by
          cases event.state <;> cases next.state <;> decide
        exact absurd hbefore (hnone hclosed)

/-- An append is made only where it leaves as many lines as the reader admits. -/
def Fits : Permission ActionFiles (ActionCall actionKey) FileRequest FileAnswer
  | files, _, _, .appendJournal _ text => (files.journalText.getD [] ++ text).count lineBreak ≤ maximumEvents
  | _, _, _, _ => True

/-- The call commits a result, and the claim names its owner. -/
def CommitsUnderClaim (files : ActionFiles) : ActionCall actionKey → Prop
  | .commitTerminal input => OwnedBy actionKey files input.ownerToken input.now
  | .commitRevocation input => OwnedBy actionKey files input.ownerToken input.now
  | _ => True

omit [Sha256] [LocaleText] [DateArithmetic] in
/-- Only an append changes the journal. -/
theorem journalText_performFile {i : Nat} {files files' : ActionFiles} {k : FileRequest} {answer : FileAnswer k}
    (h : performFile i files k answer files') : files'.journalText = files.journalText ∨
      ∃ expectedText text, k = .appendJournal expectedText text ∧ files.journalText.getD [] = expectedText ∧
        files'.journalText = some (expectedText ++ text) := by
  have heffect {value : FileValue k} (h : effect i files k value files') : files'.journalText = files.journalText ∨
      ∃ expectedText text, k = .appendJournal expectedText text ∧ files.journalText.getD [] = expectedText ∧
        files'.journalText = some (expectedText ++ text) := by
    cases k with
    | appendJournal expectedText text =>
        rcases h with ⟨-, hsame, physical, rfl⟩ | ⟨-, rfl⟩
        · exact .inr ⟨expectedText, text, rfl, hsame, rfl⟩
        · exact .inl rfl
    | observeJournal | claimExists | readClaim => exact .inl (congrArg ActionFiles.journalText h.2)
    | createClaim | createLock =>
        rcases h with ⟨-, -, rfl⟩ | ⟨-, rfl⟩ <;> exact .inl rfl
    | deleteClaim | deleteLock =>
        obtain ⟨-, rfl⟩ := h
        exact .inl rfl
    | replaceClaim | ensureDirectory | now =>
        obtain rfl := h
        exact .inl rfl
  cases answer with
  | ok value => exact heffect h
  | error e =>
      rcases h with rfl | ⟨value, h⟩
      · exact .inl rfl
      · exact heffect h

theorem reachable_fits (h : ReachableCalls evidence Fits s) :
    ∃ events, JournalIs actionKey s.state events ∧ events.length ≤ maximumEvents := by
  induction h with
  | start h => exact h.journalIs
  | @step s s' h hstep ih =>
      obtain ⟨events', hevents'⟩ := (reachable_files (h.step hstep)).journal
      cases hstep with
      | begin input => exact ih
      | request answer state' hi hp hpermitted hperform =>
          refine ⟨events', hevents', ?_⟩
          rcases journalText_performFile hperform with hsame | ⟨expectedText, text, rfl, hexpected, hwritten⟩
          · obtain ⟨events, hevents, hlength⟩ := ih
            have hevents' := JournalIs.unique hevents ⟨hsame ▸ hevents'.text, hevents'.chained⟩
            exact hevents' ▸ hlength
          · have hfits : (s.state.journalText.getD [] ++ text).count lineBreak ≤ maximumEvents := hpermitted
            have htext : journalText events' = expectedText ++ text := by
              rw [← hevents'.getD, hwritten]
              rfl
            rwa [hexpected, ← htext, count_journalText] at hfits

/-- A call in flight or ended. -/
abbrev ActionProcess (actionKey : VerificationActionKeyDigest) : Type :=
  Process (ActionCall actionKey) FileRequest FileAnswer (Except ActionFailure ActionOutcome)

/-- No call is about to commit a result without the claim of its owner. -/
def CommitsUnderClaims (s : ActionProcesses actionKey) : Prop :=
  ∀ (i : Nat) (p : ActionProcess actionKey) (expectedText text : Text) next, s.all[i]? = some p →
    p.program = .call (.appendJournal expectedText text) next → CommitsUnderClaim s.state p.input

/-- One run at most calls the executor. -/
def OneRunner (s : ActionProcesses actionKey) : Prop :=
  ∀ (i j : Nat) (p q : ActionProcess actionKey), s.all[i]? = some p → s.all[j]? = some q →
    p.program = .done (.ok (.ran .started)) → q.program = .done (.ok (.ran .started)) → i = j

/-- What holds before the next request of a call, and where it leads. -/
theorem calls_request (h : ReachableCalls evidence permitted s) {i : Nat} {p : ActionProcess actionKey}
    (hi : s.all[i]? = some p) {k next} (hp : p.program = .call k next)
    (hpermitted : permitted s.state p.input p.history k) :
    Asserted s.state p.input p.history k ∧ ∀ answer state', performFile i s.state k answer state' →
      (filesReliance actionKey permitted).Keeps i p.input (CallPost permitted i p.input) (p.history ++ [⟨k, answer⟩])
        state' (next answer) :=
  reachable_request (fun _ => Begun.filesHold) (fun _ call _ _ => keeps_callProgram call) h hi hp hpermitted

/-- Where no request is forbidden. -/
abbrev Unrestricted : Permission ActionFiles (ActionCall actionKey) FileRequest FileAnswer := fun _ _ _ _ => True

theorem reachable_commits (h : ReachableCalls evidence Unrestricted s) :
    CommitsUnderClaims s := by
  intro i p expectedText text next hi hp
  obtain ⟨hasserted, -⟩ := calls_request h hi hp trivial
  revert hasserted
  change Asserted s.state p.input p.history (.appendJournal expectedText text) → _
  cases p.input <;> exact id

theorem reachable_started (h : ReachableCalls evidence Unrestricted s) {i : Nat}
    {p : ActionProcess actionKey} (hi : s.all[i]? = some p) (hp : p.program = .done (.ok (.ran .started))) :
    s.state.creator = some i := by
  obtain ⟨-, hall⟩ := calls_established h
  obtain ⟨s₀, -, hrely, hkeeps⟩ := hall i p hi
  rw [hp] at hkeeps
  exact hrely.creator i hkeeps

/-- The Action has a result, or is closed. -/
def isSettled (state : Option VerificationActionJournalState) : Bool :=
  state = some .terminal || state = some .reused || isClosed state

/-- The journal that the call has read first was not closed, and no event since then has settled the Action. -/
def Quiet (actionKey : VerificationActionKeyDigest) (history : List (Calls.Event FileRequest FileAnswer))
    (files : ActionFiles) : Prop :=
  ∀ file events later, history.head? = some ⟨.observeJournal, .ok file⟩ →
    JournalIs actionKey { files with journal := file } events → JournalIs actionKey files (events ++ later) →
      isClosed (readbackOf events).latestState = false ∧ ∀ event ∈ later, isSettled (some event.state) = false

/-- The request that gets an acquisition its claim is made only while nothing has settled the Action. -/
def Undisturbed : Permission ActionFiles (ActionCall actionKey) FileRequest FileAnswer
  | files, .acquire _, history, k => Decides history k → Quiet actionKey history files
  | _, _, _, _ => True

omit [LocaleText] [DateArithmetic] in
theorem follows_getLast? {events : List VerificationActionJournalEvent} (h : Chained actionKey events)
    {last : VerificationActionJournalEvent} (hlast : events.getLast? = some last) :
    Follows actionKey events.dropLast last := by
  rw [← List.dropLast_append_getLast? _ hlast] at h
  exact (eachAfter_snoc.mp h).2

omit [LocaleText] [DateArithmetic] in
/-- A journal that neither has a result nor is under way nor closed has no event. -/
theorem isSettled_of_fresh {events : List VerificationActionJournalEvent} (h : Chained actionKey events)
    (hsettled : settledOutcome (readbackOf events) = none) (hclosed : isClosed (readbackOf events).latestState = false) :
    isSettled (readbackOf events).latestState = false := by
  cases hlast : events.getLast? with
  | none =>
      have hstate : (readbackOf events).latestState = none := by
        show events.getLast?.map _ = none
        rw [hlast]
        rfl
      rw [hstate]
      rfl
  | some last =>
      have hstate : (readbackOf events).latestState = some last.state := by
        show events.getLast?.map _ = some last.state
        rw [hlast]
        rfl
      rw [hstate] at hclosed ⊢
      have hcarries : last.state.carriesTerminal = false := by
        by_contra hcarries
        have hcarries := Bool.not_eq_false _ ▸ hcarries
        -- the last event carries the terminal that the readback exposes
        have hterminal : (readbackOf events).terminal ≠ none := by
          rw [readbackOf_terminal hlast, if_pos hcarries]
          have hsome := (follows_getLast? h hlast).carries
          rw [hcarries] at hsome
          exact Option.isSome_iff_ne_none.mp hsome
        unfold settledOutcome at hsettled
        rw [if_neg (show ¬(readbackOf events).recoveryDisposition ≠ none from fun hne => hne rfl), hstate, if_pos] at hsettled
        · cases hsettled
        · refine ⟨?_, hterminal⟩
          revert hcarries
          cases last.state <;> decide
      revert hclosed hcarries
      cases last.state <;> decide

/-- The claim file holds this claim. -/
def Names (actionKey : VerificationActionKeyDigest) (files : ActionFiles) (claim : VerificationActionClaim) : Prop :=
  ∃ text, files.claim = some text ∧ (text = claim.source ∨ parseClaim text actionKey = .ok claim)

/-- In every run whose acquisitions are undisturbed, an acquisition that gets its claim leaves an Action that is not settled,
and a claim file with the claim that it returns. -/
theorem acquired_undisturbed (h : ReachableCalls evidence Undisturbed s) {i : Nat}
    {input : AcquireInput actionKey} {history k next} (hi : s.all[i]? = some ⟨.acquire input, history, .call k next⟩)
    (hundisturbed : Undisturbed s.state (.acquire input) history k) {answer state'}
    (hperform : performFile i s.state k answer state') {o} (hnext : next answer = .done (.ok (.acquired o)))
    (ho : o.disposition = .acquired) :
    (∃ events, JournalIs actionKey state' events ∧ isSettled (readbackOf events).latestState = false) ∧
      ∃ claim, o.claim = some claim ∧ Names actionKey state' claim := by
  obtain ⟨-, hanswer⟩ := calls_request h hi rfl hundisturbed
  have hkeeps := hanswer answer state' hperform
  rw [hnext] at hkeeps
  obtain ⟨claim, hclaim, hhanded⟩ : ∃ claim, o.claim = some claim ∧ Handed Undisturbed (.acquire input) [] state' claim :=
    hkeeps ho
  refine ⟨?_, claim, hclaim, hhanded.named⟩
  obtain ⟨file, events, later, more, k', s₀, hread, hsettled, -, hnow, hjournal, hdecides, hpermitted⟩ := hhanded.seen
  have hquiet : Quiet actionKey (⟨.observeJournal, .ok file⟩ :: more) s₀ := hpermitted (hdecides.imp id fun h =>
    ⟨h.1, h.2.imp fun _ hmem => List.mem_cons_of_mem _ hmem⟩)
  obtain ⟨hopen, hlater⟩ := hquiet file events later rfl ⟨hread.text, hread.chained⟩
    ⟨by rw [ActionFiles.journalText, hjournal]; exact hnow.text, hnow.chained⟩
  refine ⟨events ++ later, hnow, ?_⟩
  cases hlast : later.getLast? with
  | none =>
      obtain rfl := List.getLast?_eq_none_iff.mp hlast
      rw [List.append_nil]
      exact isSettled_of_fresh hread.chained hsettled hopen
  | some last =>
      have hstate : (readbackOf (events ++ later)).latestState = some last.state := by
        show (events ++ later).getLast?.map _ = _
        rw [List.getLast?_append, hlast]
        rfl
      rw [hstate]
      exact hlater last (List.mem_of_getLast? hlast)

/-! ## The claims that are written -/

/-- One lease after the caller's time the year still has four digits, and the claim was acquired before. -/
def Expires (acquiredAt : Text) (now : Text) (leaseDurationMs : JsNumber) : Prop :=
  ∃ time duration expiresAt, time.val = now ∧ leaseDuration leaseDurationMs = .ok duration ∧
    DateArithmetic.later time duration = some expiresAt ∧ IsoDate.isTimestampText expiresAt ∧ acquiredAt < expiresAt

omit [Sha256] [LocaleText] in
theorem newClaim_ok {token now : Text} {leaseDurationMs : JsNumber} {claim : VerificationActionClaim}
    (h : newClaim actionKey token now leaseDurationMs = .ok claim) :
    claim.actionKey = actionKey ∧ claim.ownerToken.val = token ∧ claim.acquiredAt.val = now ∧ ∃ duration,
      leaseDuration leaseDurationMs = .ok duration ∧ DateArithmetic.later claim.acquiredAt duration = some claim.expiresAt := by
  unfold newClaim at h
  obtain ⟨acquiredAt, hacquired, h⟩ := bind_eq_ok.mp h
  obtain ⟨duration, hduration, h⟩ := bind_eq_ok.mp h
  obtain ⟨owner, howner, h⟩ := bind_eq_ok.mp h
  obtain ⟨expiresAt, hexpires, h⟩ := bind_eq_ok.mp h
  cases h
  refine ⟨rfl, ownerToken_str.mp howner, assertIsoDate_str.mp hacquired, duration, hduration, ?_⟩
  unfold expiry at hexpires
  split at hexpires
  · rename_i hlater
    exact Except.ok.inj hexpires ▸ hlater
  · cases hexpires

omit [Sha256] [LocaleText] in
/-- A claim with the expiry of a new one is read back exactly where it expires behind its acquisition. -/
theorem parseClaim_extension {token now : Text} {leaseDurationMs : JsNumber} {extension : VerificationActionClaim}
    (h : newClaim actionKey token now leaseDurationMs = .ok extension) (acquiredAt : IsoText) :
    parseClaim { extension with acquiredAt := acquiredAt }.source actionKey = .ok { extension with acquiredAt := acquiredAt } ↔
      Expires acquiredAt.val now leaseDurationMs := by
  obtain ⟨hkey, -, hnow, duration, hduration, hlater⟩ := newClaim_ok h
  rw [parseClaim_source]
  constructor
  · rintro ⟨-, -, htimestamp, hlt⟩
    exact ⟨extension.acquiredAt, duration, extension.expiresAt, hnow, hduration, hlater, htimestamp, hlt⟩
  · rintro ⟨time, duration', expiresAt, htime, hduration', hlater', htimestamp, hlt⟩
    obtain rfl : time = extension.acquiredAt := Subtype.ext (htime.trans hnow.symm)
    obtain rfl : duration' = duration := Except.ok.inj (hduration'.symm.trans hduration)
    obtain rfl := Option.some.inj (hlater'.symm.trans hlater)
    exact ⟨rfl, hkey, htimestamp, hlt⟩

/-- A claim that an acquisition writes, and when it is read back. -/
def WritesNew (actionKey : VerificationActionKeyDigest) (text token now : Text) (leaseDurationMs : Option JsNumber) : Prop :=
  ∃ claim, newClaim actionKey token now (leaseDurationMs.getD (.ofNat 300000)) = .ok claim ∧ text = claim.source ∧
    (parseClaim text actionKey = .ok claim ↔ Expires now now (leaseDurationMs.getD (.ofNat 300000)))

/-- A claim that a renewal writes over the one in the file, and when it is read back. -/
def WritesRenewal (actionKey : VerificationActionKeyDigest) (files : ActionFiles) (input : RenewInput) (text : Text) : Prop :=
  ∃ source existing claim, files.claim = some source ∧ parseClaim source actionKey = .ok existing ∧
    claim.ownerToken.val = input.ownerToken ∧ claim.acquiredAt = existing.acquiredAt ∧ text = claim.source ∧
    (parseClaim text actionKey = .ok claim ↔ Expires existing.acquiredAt.val input.now input.leaseDurationMs)

/-- What the call writes with this request, when it writes a claim. -/
def WritesClaim (files : ActionFiles) : ActionCall actionKey → FileRequest → Prop
  | .acquire input, .createClaim text => WritesNew actionKey text input.ownerToken input.now input.leaseDurationMs
  | .run input, .createClaim text => ∃ now, WritesNew actionKey text input.ownerToken now input.leaseDurationMs
  | .renew input, .replaceClaim text => WritesRenewal actionKey files input text
  | _, .createClaim _ | _, .replaceClaim _ => False
  | _, _ => True

omit [Sha256] [LocaleText] in
theorem writesNew_of_newClaim {token now : Text} {leaseDurationMs : Option JsNumber} {claim : VerificationActionClaim}
    (h : newClaim actionKey token now (leaseDurationMs.getD (.ofNat 300000)) = .ok claim) :
    WritesNew actionKey claim.source token now leaseDurationMs := by
  have hparse := parseClaim_extension h claim.acquiredAt
  rw [(newClaim_ok h).2.2.1] at hparse
  exact ⟨claim, h, rfl, hparse⟩

/-- Whatever the calls, a claim that one of them is about to write is read back exactly where it expires behind its
acquisition. -/
theorem written_claim_parses (h : ReachableCalls evidence Unrestricted s) {i : Nat}
    {p : ActionProcess actionKey} (hi : s.all[i]? = some p) {k next} (hp : p.program = .call k next) :
    WritesClaim s.state p.input k := by
  obtain ⟨hasserted, -⟩ := calls_request h hi hp trivial
  change Asserted s.state p.input p.history k at hasserted
  cases k with
  | createClaim text =>
      cases hinput : p.input with
      | acquire input =>
          rw [hinput] at hasserted
          obtain ⟨claim, hclaim, rfl⟩ := hasserted
          exact writesNew_of_newClaim hclaim
      | run input =>
          rw [hinput] at hasserted
          obtain ⟨now, claim, hclaim, rfl⟩ := hasserted
          exact ⟨now, writesNew_of_newClaim hclaim⟩
      | _ =>
          rw [hinput] at hasserted
          exact hasserted
  | replaceClaim text =>
      cases hinput : p.input with
      | renew input =>
          rw [hinput] at hasserted
          obtain ⟨source, existing, extension, hsource, hexisting, hextension, rfl⟩ := hasserted
          exact ⟨source, existing, { extension with acquiredAt := existing.acquiredAt }, hsource, hexisting,
            (newClaim_ok hextension).2.1, rfl, rfl, parseClaim_extension hextension existing.acquiredAt⟩
      | _ =>
          rw [hinput] at hasserted
          exact hasserted
  | _ => cases p.input <;> trivial

/-! ## Single calls -/

/-- An acquisition that finds neither a result nor a run under way creates the claim. -/
structure Fresh (evidence : RetainedEvidence) (input : AcquireInput actionKey) (files : ActionFiles)
    (lease : VerificationActionClaim) : Prop where
  read : ∃ generation, readVerificationActionJournalGeneration evidence actionKey files.journal = .ok generation ∧
    settledOutcome generation.readback = none ∧ isUnfinished generation.readback.latestState = false
  claim : files.claim = none
  lease : newClaim actionKey input.ownerToken input.now (input.leaseDurationMs.getD (.ofNat 300000)) = .ok lease

variable {input : AcquireInput actionKey} {files : ActionFiles} {lease : VerificationActionClaim}

/-- The part of an acquisition behind its reading. -/
def acquireBehind (evidence : RetainedEvidence) (input : AcquireInput actionKey)
    (journal : VerificationActionJournalReadback) : ActionProcedure VerificationActionClaimOutcome :=
  match settledOutcome journal with
  | some outcome => return outcome
  | none => do
      let lease ← Procedure.result
        (newClaim actionKey input.ownerToken input.now (input.leaseDurationMs.getD (.ofNat 300000)))
      let _ ← attempt .ensureDirectory
      if isUnfinished journal.latestState then recoverAbandoned evidence input.action lease
      else acquireFresh actionKey lease

theorem acquire_eq (input : AcquireInput actionKey) : acquireVerificationActionClaim evidence input = (do
    let journal ← readVerificationActionJournal evidence actionKey
    acquireBehind evidence input journal) := by
  unfold acquireVerificationActionClaim
  rw [reparseAction_toValue]
  show (do
    let journal ← readVerificationActionJournal evidence input.action.val.actionKey
    acquireBehind evidence input journal) = _
  rw [input.action.2]

theorem Fresh.behind (h : Fresh evidence input files lease) : ∃ generation,
    readVerificationActionJournalGeneration evidence actionKey files.journal = .ok generation ∧
      acquireBehind evidence input generation.readback = (do
        let _ ← attempt .ensureDirectory
        acquireFresh actionKey lease) := by
  obtain ⟨generation, hread, hsettled, hfresh⟩ := h.read
  refine ⟨generation, hread, ?_⟩
  unfold acquireBehind
  rw [hsettled, h.lease]
  dsimp only
  rw [hfresh]
  rfl

/-- The requests of such an acquisition. -/
theorem Fresh.requests (h : Fresh evidence input files lease) : ∃ next₁ next₂ next₃,
    callProgram evidence (.acquire input) = .call .observeJournal next₁ ∧
      next₁ (.ok files.journal) = .call .ensureDirectory next₂ ∧
      next₂ (.ok ()) = .call (.createClaim lease.source) next₃ ∧
      next₃ (.ok true) = .done (.ok (.acquired ⟨.acquired, some lease, none, none⟩)) := by
  obtain ⟨generation, hread, hbehind⟩ := h.behind
  let finish (p : ActionProcedure VerificationActionClaimOutcome) : ActionProcedure ActionOutcome := do
    let outcome ← p
    return .acquired outcome
  have hprogram : callProgram evidence (.acquire input) = (finish (do
      let journal ← readVerificationActionJournal evidence actionKey
      acquireBehind evidence input journal)).run := by
    unfold callProgram callProcedure
    dsimp only
    rw [acquire_eq]
  have hbegin : (finish (do
      let journal ← (do
        let generation ← Procedure.result (readVerificationActionJournalGeneration evidence actionKey files.journal)
        return generation.readback)
      acquireBehind evidence input journal)).run = (finish (do
        let _ ← attempt .ensureDirectory
        acquireFresh actionKey lease)).run := by
    rw [hread, ← hbehind]
    rfl
  exact ⟨_, _, _, hprogram, hbegin, rfl, rfl⟩

/-- Such an acquisition may come as far as the creation of the claim. -/
theorem Fresh.reachable (permitted : Permission ActionFiles (ActionCall actionKey) FileRequest FileAnswer)
    (h : Fresh evidence input files lease) (hbegun : Begun actionKey files)
    (hobserve : ∀ history, permitted files (.acquire input) history .observeJournal)
    (hensure : ∀ history, permitted files (.acquire input) history .ensureDirectory) : ∃ history next,
    ReachableCalls evidence permitted ⟨files, [⟨.acquire input, history, .call (.createClaim lease.source) next⟩]⟩ ∧
      history.head? = some ⟨.observeJournal, .ok files.journal⟩ ∧
      next (.ok true) = .done (.ok (.acquired ⟨.acquired, some lease, none, none⟩)) := by
  obtain ⟨next₁, next₂, next₃, hprogram, hfirst, hsecond, hthird⟩ := h.requests
  have hbegin : ReachableCalls evidence permitted ⟨files, [⟨.acquire input, [], callProgram evidence (.acquire input)⟩]⟩ :=
    .step (.start hbegun) (.begin (ActionCall.acquire input))
  have hobserves : performFile 0 files .observeJournal (.ok files.journal) files := ⟨rfl, rfl⟩
  have hobserved := hbegin.step (.request (i := 0) (.ok files.journal) files rfl hprogram (hobserve _) hobserves)
  have hensures : performFile 0 files .ensureDirectory (.ok ()) files := rfl
  have hensured := hobserved.step (.request (i := 0) (.ok ()) files rfl hfirst (hensure _) hensures)
  rw [hsecond] at hensured
  exact ⟨_, next₃, hensured, rfl, hthird⟩

theorem Fresh.alone (h : Fresh evidence input files lease) (i : Nat) :
    Alone performFile i files (callProgram evidence (.acquire input)) { files with claim := some lease.source }
      (.ok (.acquired ⟨.acquired, some lease, none, none⟩)) := by
  obtain ⟨next₁, next₂, next₃, hprogram, hfirst, hsecond, hthird⟩ := h.requests
  rw [hprogram]
  refine .call (.ok files.journal) ⟨rfl, rfl⟩ ?_
  rw [hfirst]
  refine .call (.ok ()) rfl ?_
  rw [hsecond]
  refine .call (.ok true) (.inl ⟨rfl, h.claim, rfl⟩) ?_
  rw [hthird]
  exact .done _ _

/-- A renewal that its owner makes while nobody holds the lock. -/
theorem alone_renew {source : Text} {existing extension : VerificationActionClaim} {input : RenewInput} {time : IsoText}
    (hlock : files.lock = none) (hclaim : files.claim = some source) (hexisting : parseClaim source actionKey = .ok existing)
    (howner : existing.ownerToken.val = input.ownerToken) (htime : time.val = input.now)
    (hlive : time.val < existing.expiresAt)
    (hextension : newClaim actionKey input.ownerToken input.now input.leaseDurationMs = .ok extension) (i : Nat) :
    Alone performFile i files (callProgram evidence (.renew input : ActionCall actionKey))
      { files with claim := some { extension with acquiredAt := existing.acquiredAt }.source } (.ok (.renewed true)) := by
  let locked : ActionFiles := { files with lock := some i }
  let written : ActionFiles := { locked with claim := some { extension with acquiredAt := existing.acquiredAt }.source }
  have hread : Alone performFile i locked (readVerificationActionClaim actionKey) locked (.ok (some existing)) := by
    refine alone_bind_ok.mpr ⟨true, locked, alone_attempt.mpr ⟨by rw [hclaim]; rfl, rfl⟩, ?_⟩
    refine alone_bind_ok.mpr ⟨source, locked, alone_attempt.mpr ⟨hclaim, rfl⟩, ?_⟩
    exact alone_bind_ok.mpr ⟨existing, locked, alone_result.mpr ⟨rfl, hexisting.symm⟩, alone_pure.mpr ⟨rfl, rfl⟩⟩
  have howned : ownedClaim (some existing) input.ownerToken time = .ok (some existing) := by
    unfold ownedClaim
    dsimp only
    rw [ownerToken_str.mpr howner, ok_bind, Option.filter, if_pos (decide_eq_true ⟨rfl, hlive⟩)]
    rfl
  have hoperation : Alone performFile i locked (renewUnderLock actionKey input) written (.ok true) := by
    refine alone_bind_ok.mpr ⟨some existing, locked, ?_, ?_⟩
    · refine alone_bind_ok.mpr ⟨some existing, locked, hread, ?_⟩
      refine alone_bind_ok.mpr ⟨time, locked, alone_result.mpr ⟨rfl, (assertIsoDate_str.mpr htime).symm⟩, ?_⟩
      exact alone_result.mpr ⟨rfl, howned.symm⟩
    · refine alone_bind_ok.mpr ⟨extension, locked, alone_result.mpr ⟨rfl, hextension.symm⟩, ?_⟩
      exact alone_bind_ok.mpr ⟨(), written, alone_attempt.mpr rfl, alone_pure.mpr ⟨rfl, rfl⟩⟩
  have hunlock : Alone performFile i written deleteRecoveryLock { written with lock := none } (.ok ()) :=
    alone_bind_ok.mpr ⟨true, _, alone_attempt.mpr ⟨rfl, rfl⟩, alone_pure.mpr ⟨rfl, rfl⟩⟩
  refine alone_bind_ok.mpr ⟨true, _, ?_, alone_pure.mpr ⟨rfl, rfl⟩⟩
  refine alone_bind_ok.mpr ⟨some true, _, ?_, alone_pure.mpr ⟨rfl, rfl⟩⟩
  refine alone_bind_ok.mpr ⟨true, locked, alone_attempt.mpr (.inl ⟨rfl, hlock, rfl⟩), ?_⟩
  refine alone_bind_ok.mpr ⟨true, _, alone_finallyDo hoperation hunlock, alone_pure.mpr ⟨?_, rfl⟩⟩
  rw [hlock]

end Interleavings

/-! ## Samples -/

section Samples

local instance : Sha256 := someSha256

local instance : LocaleText := someLocaleText

/-- Five minutes after the sample time, and one second after the day before it. -/
local instance someDates : DateArithmetic :=
  ⟨fun time _ => some (if time = someTime then "2026-01-01T00:05:00.000Z" else "2025-12-31T00:00:01.000Z")⟩

def someAcquire : AcquireInput someAction.actionKey := ⟨⟨someAction, rfl⟩, "owner", someTime.val, none⟩

def someClaim : VerificationActionClaim :=
  ⟨someAction.actionKey, ⟨"owner", by decide⟩, someTime, "2026-01-01T00:05:00.000Z"⟩

/-- No file at all. -/
def noFiles : ActionFiles := ⟨none, none, none, none⟩

theorem newClaim_someAcquire : newClaim someAction.actionKey someAcquire.ownerToken someAcquire.now
    (someAcquire.leaseDurationMs.getD (.ofNat 300000)) = .ok someClaim := by
  rfl

theorem fresh_noFiles : Fresh noEvidence someAcquire noFiles someClaim where
  read := ⟨⟨emptyReadback, none⟩, rfl, rfl, rfl⟩
  claim := rfl
  lease := newClaim_someAcquire

theorem begun_noFiles : Begun someAction.actionKey noFiles := ⟨⟨emptyReadback, rfl⟩, rfl⟩

theorem begun_journalFiles {events : List VerificationActionJournalEvent} (hne : events ≠ [])
    (hlength : events.length ≤ maximumEvents) (hchained : Chained someAction.actionKey events) :
    Begun someAction.actionKey (journalFiles events) :=
  ⟨⟨_, parseJournalSource_journalIs ⟨(if_neg hne).symm, hchained⟩ hlength⟩, rfl⟩

theorem journalIs_noFiles : JournalIs someAction.actionKey noFiles [] := ⟨rfl, .nil⟩

theorem acquired_undisturbed_first : ∃ state' : ActionFiles,
    (∃ events, JournalIs someAction.actionKey state' events ∧ isSettled (readbackOf events).latestState = false) ∧
      ∃ claim, (some someClaim) = some claim ∧ Names someAction.actionKey state' claim := by
  obtain ⟨history, next, hreachable, hfirst, hnext⟩ := Fresh.reachable Undisturbed fresh_noFiles begun_noFiles
    (fun _ => by rintro (⟨_, h⟩ | ⟨h, -⟩) <;> cases h) fun _ => by rintro (⟨_, h⟩ | ⟨h, -⟩) <;> cases h
  have hquiet : Quiet someAction.actionKey history noFiles := by
    intro file events later hfile hread hnow
    obtain ⟨rfl, rfl⟩ := List.append_eq_nil_iff.mp (hnow.unique journalIs_noFiles)
    exact ⟨rfl, List.forall_mem_nil _⟩
  have hperform : performFile 0 noFiles (.createClaim someClaim.source) (.ok true)
      { noFiles with claim := some someClaim.source } := .inl ⟨rfl, rfl, rfl⟩
  exact ⟨_, acquired_undisturbed hreachable rfl (fun _ => hquiet) hperform hnext rfl⟩

/-- A journal that was cancelled before it ran. -/
def cancelledJournal : List VerificationActionJournalEvent := extended (extended [] .queued none) .cancelled none

theorem cancelledJournal_spec : Chained someAction.actionKey cancelledJournal ∧
    ∀ event ∈ cancelledJournal, Within 2100 event.toValue := by
  have hnone : Within 600 .null := within_null.mono (by decide)
  have hqueued : Chained someAction.actionKey (extended [] .queued none) :=
    chained_extended .nil rfl (terminalBinds_none _) rfl
  have htransition : Transition ((extended [] .queued none).getLast?.map fun event => event.state) .cancelled := by
    rw [getLast?_extended]
    decide
  refine ⟨chained_extended hqueued htransition (terminalBinds_none _) rfl, ?_⟩
  exact List.forall_mem_append.mpr ⟨List.forall_mem_singleton.mpr (within_last .nil (by decide) _ hnone),
    List.forall_mem_singleton.mpr (within_last hqueued (by decide) _ hnone)⟩

/-- The claim of a cancelled Action is handed over. -/
theorem acquired_cancelled : ∃ (s : ActionProcesses someAction.actionKey) (history : _) (claim : VerificationActionClaim),
    ReachableCalls noEvidence Unrestricted s ∧
      s.all = [⟨.acquire someAcquire, history, .done (.ok (.acquired ⟨.acquired, some claim, none, none⟩))⟩] ∧
      ∃ events, JournalIs someAction.actionKey s.state events ∧ (readbackOf events).latestState = some .cancelled := by
  obtain ⟨hchained, hwithin⟩ := cancelledJournal_spec
  have hne : cancelledJournal ≠ [] := List.append_ne_nil_of_right_ne_nil _ (List.cons_ne_nil _ _)
  have hlength : cancelledJournal.length ≤ maximumEvents := by decide
  have hstate : (readbackOf cancelledJournal).latestState = some .cancelled :=
    getLast?_extended (extended [] .queued none) .cancelled none
  have hfresh : Fresh noEvidence someAcquire (journalFiles cancelledJournal) someClaim := {
    read := ⟨_, readGeneration_journalFiles hne hlength hchained hwithin, by
      unfold settledOutcome
      rw [hstate]
      rfl, by
      rw [hstate]
      rfl⟩
    claim := rfl
    lease := newClaim_someAcquire }
  obtain ⟨history, hreachable⟩ := Processes.reachable_alone
    (Processes.Reachable.start (begun_journalFiles hne hlength hchained)) (hfresh.alone 0)
  exact ⟨_, history, someClaim, hreachable, rfl, cancelledJournal, ⟨(if_neg hne).symm, hchained⟩, hstate⟩

theorem written_claim_parses_first : ∃ s : ActionProcesses someAction.actionKey,
    WritesClaim s.state (.acquire someAcquire) (.createClaim someClaim.source) := by
  obtain ⟨history, next, hreachable, -⟩ := Fresh.reachable Unrestricted fresh_noFiles begun_noFiles
    (fun _ => trivial) fun _ => trivial
  exact ⟨_, written_claim_parses hreachable (i := 0) rfl rfl⟩

/-- The owner renews its claim by a clock that stands a day before the acquisition. -/
def earlyRenewal : RenewInput := ⟨"owner", "2025-12-31T00:00:00.000Z", .ofNat 1000⟩

/-- A claim that was acquired and renewed is not read back. -/
theorem not_written_claim_parses : ∃ s : ActionProcesses someAction.actionKey, ReachableCalls noEvidence Unrestricted s ∧
    (∃ history history', s.all = [
      ⟨.acquire someAcquire, history, .done (.ok (.acquired ⟨.acquired, some someClaim, none, none⟩))⟩,
      ⟨.renew earlyRenewal, history', .done (.ok (.renewed true))⟩]) ∧
    ∃ text, s.state.claim = some text ∧ ∀ claim, parseClaim text someAction.actionKey ≠ .ok claim := by
  obtain ⟨history, hacquired⟩ := Processes.reachable_alone (Processes.Reachable.start begun_noFiles) (fresh_noFiles.alone 0)
  have hparse : parseClaim someClaim.source someAction.actionKey = .ok someClaim :=
    parseClaim_source.mpr ⟨rfl, rfl, by decide, by decide⟩
  let time : IsoText := ⟨Text.ofString "2025-12-31T00:00:00.000Z", by decide⟩
  let extension : VerificationActionClaim := ⟨someAction.actionKey, ⟨"owner", by decide⟩, time, "2025-12-31T00:00:01.000Z"⟩
  have hextension : newClaim someAction.actionKey earlyRenewal.ownerToken earlyRenewal.now earlyRenewal.leaseDurationMs =
      .ok extension := rfl
  have htime : time.val = earlyRenewal.now := rfl
  have hrenew : Alone performFile 1 { noFiles with claim := some someClaim.source }
      (callProgram noEvidence (.renew earlyRenewal : ActionCall someAction.actionKey))
      { noFiles with claim := some { extension with acquiredAt := someClaim.acquiredAt }.source } (.ok (.renewed true)) :=
    alone_renew rfl rfl hparse rfl htime (by decide) hextension 1
  obtain ⟨history', hrenewed⟩ := Processes.reachable_alone hacquired hrenew
  refine ⟨_, hrenewed, ⟨history, history', rfl⟩, _, rfl, fun claim hclaim => ?_⟩
  obtain ⟨-, -, -, hlt⟩ := parseClaim_source.mp hclaim
  exact absurd hlt (by decide)

end Samples

end SecPlatform.VerificationAction
