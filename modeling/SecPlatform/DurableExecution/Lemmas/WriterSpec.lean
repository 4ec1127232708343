import SecPlatform.DurableExecution.Lemmas.Capacity
import SecPlatform.Library.Lemmas.FileProgram

/-!
# The store meets its specification

Each operation of the store keeps journals stored, adds what it asks for and nothing else, and answers with a
journal that has what it asked for. The requests of an attempt do not fail for want of capacity.
-/

namespace SecPlatform.DurableExecution

open Contracts FileProgram

variable [Sha256] {key : Digest}

/-- What the calls on one journal maintain. Under `strict`, the journal that won against a recovered retry is sound for
it, and an answer has the records that were asked for. -/
def writerSpec (key : Digest) (strict : Prop) : FileSpec (WriterCall key) CodeUnit StoreFailure JournalObservation where
  valid source := ∃ obs, Stored key source obs
  change call old new := ∃ added, (∀ r ∈ added, WellSealed r) ∧ new = old.getD [] ++ journalText added ∧
    call.request.Adds added ∧ ∀ ask ∈ call.asks, ∃ r ∈ added, ask r
  guard call lost source := strict → lost = true → call.request.RetrySound source
  post call source answer := parseDurableExecutionJournal source = .ok answer ∧
    (strict → ∀ ask ∈ call.asks, ∃ r ∈ answer.records, ask r)
  fails call known e := call.request.closes → e.isCapacity → ∃ source obs, known = some source ∧
    Stored key source obs ∧ (limitsMatchIntent obs call.limits.val → call.request.ExceedsSettlements obs)

variable {strict : Prop} {call : WriterCall key} {lost : Bool} {known : Option Text}

theorem fails_of_isCapacity {e : StoreFailure} (h : e.isCapacity = false) :
    (writerSpec key strict).fails call known e := by
  intro _ hcapacity
  rw [h] at hcapacity
  cases hcapacity

theorem fails_of_not_closes {e : StoreFailure} (h : call.request.closes = false) :
    (writerSpec key strict).fails call known e := by
  intro hcloses
  rw [h] at hcloses
  cases hcloses

section Parts

variable {β : Type}

theorem keeps_assertDeadline {Q : Bool → Option Text → Unit → Prop} (h : Q lost known ()) :
    Keeps JournalReads (writerSpec key strict) call Q lost known assertDeadline := by
  refine keeps_bind (keeps_expired fun b => ?_)
  cases b with
  | true => exact keeps_error (fails_of_isCapacity rfl)
  | false => exact keeps_pure h

theorem keeps_assertCumulativeLimits {observation : JournalObservation} {bytes : Nat} {reserve : Bool}
    {limits : StoreLimits} {Q : Bool → Option Text → Unit → Prop}
    (h : checkCumulativeLimits observation limits bytes reserve = .ok () → Q lost known ())
    (herror : ∀ e, checkCumulativeLimits observation limits bytes reserve = .error e →
      (writerSpec key strict).fails call known e) :
    Keeps JournalReads (writerSpec key strict) call Q lost known
      (assertCumulativeLimits observation limits bytes reserve) :=
  keeps_bind (keeps_assertDeadline (keeps_lift (fun _ hcheck => h hcheck) herror))

theorem keeps_identityPath {Q : Bool → Option Text → Digest → Prop} {text : Text} (h : ∀ d, Q lost known d) :
    Keeps JournalReads (writerSpec key strict) call Q lost known (lift (identityPath text)) :=
  keeps_lift (fun d _ => h d) fun _ he => fails_of_isCapacity (isCapacity_canonicalDigest he)

theorem keeps_observeJournal {Q : Bool → Option Text → JournalObservation → Prop} {records : List DurableRecord}
    (h : ∀ obs, observeDurableExecutionJournal records = .ok obs → Q lost known obs) :
    Keeps JournalReads (writerSpec key strict) call Q lost known (lift (observeJournal records)) :=
  keeps_lift (fun obs hobs => h obs (mapError_eq_ok.mp hobs)) fun _ he =>
    fails_of_isCapacity (isCapacity_observeJournal he)

theorem keeps_readSource {source : Text} {obs : JournalObservation}
    {Q : Bool → Option Text → JournalObservation → Prop} (hstored : Stored key source obs)
    (h : limitsMatchIntent obs call.limits.val → Q lost (some source) obs) :
    Keeps JournalReads (writerSpec key strict) call Q lost (some source)
      (readSource call.limits.val call.request.operationKeyDigest source) := by
  refine keeps_bind (keeps_lift (fun current hcurrent => ?_) fun e he => ?_)
  · obtain rfl := hstored.unique (mapError_eq_ok.mp hcurrent)
    split
    · exact keeps_error (fails_of_isCapacity rfl)
    · split
      · exact keeps_error (fails_of_isCapacity rfl)
      · rename_i hlimits
        simp only [Bool.not_eq_true', Bool.not_eq_false] at hlimits
        refine keeps_bind (keeps_assertCumulativeLimits (fun _ => keeps_pure (h hlimits)) fun e he => ?_)
        -- the limits of a stored journal hold when they are read
        obtain ⟨hfits, _, hcount⟩ := hstored.check hlimits
        rw [checkCumulativeLimits_ok.mpr ⟨hfits, fun a ha _ => hcount a ha⟩] at he
        cases he
  · rw [hstored.parsed] at he
    cases he

/-- Reading gives a stored journal of the limits of the store, or nothing. -/
theorem keeps_readState {Q : Bool → Option Text → Option (JournalObservation × Text) → Prop}
    (hnone : Q lost none none)
    (hsome : ∀ source obs, Stored key source obs → (strict → lost = true → call.request.RetrySound source) →
      limitsMatchIntent obs call.limits.val → Q lost (some source) (some (obs, source))) :
    Keeps JournalReads (writerSpec key strict) call Q lost known
      (readState call.limits.val call.request.operationKeyDigest) := by
  refine keeps_bind (keeps_assertDeadline (keeps_bind (keeps_identityPath fun _ => keeps_bind (keeps_readFile ?_))))
  intro file result hvalid _ hread hguard
  cases hread with
  | text hmaximum =>
      cases file with
      | none => exact keeps_pure hnone
      | some source =>
          obtain ⟨obs, hstored⟩ := hvalid source rfl
          exact keeps_bind (keeps_readSource hstored fun hm => keeps_pure (hsome source obs hstored (hguard source rfl) hm))
  | tooLarge text message hfile hlarge =>
      subst hfile
      obtain ⟨obs, hstored⟩ := hvalid text rfl
      refine keeps_error fun _ _ => ⟨text, obs, rfl, hstored, fun hm => ?_⟩
      have hbytes := (hstored.check hm).1.bytes
      omega
  | expired message => exact keeps_error (fails_of_isCapacity rfl)
  | other => exact keeps_error (fails_of_isCapacity rfl)

theorem keeps_required {Q : Bool → Option Text → JournalObservation → Prop}
    (hsome : ∀ source obs, Stored key source obs → (strict → lost = true → call.request.RetrySound source) →
      limitsMatchIntent obs call.limits.val → Q lost (some source) obs) :
    Keeps JournalReads (writerSpec key strict) call Q lost known
      (required call.limits.val call.request.operationKeyDigest) :=
  keeps_bind (keeps_readState (keeps_error (fails_of_isCapacity rfl))
    fun source obs hstored hguard hm => keeps_pure (hsome source obs hstored hguard hm))

end Parts

/-! ## One record behind a journal -/

/-- A record that the store appends leaves a stored journal. -/
theorem Stored.append_record {limits : StoreLimits} {source : Text} {current next : JournalObservation}
    {record : DurableRecord} (h : Stored key source current) (hm : limitsMatchIntent current limits)
    (hsealed : WellSealed record)
    (hnext : observeDurableExecutionJournal (current.records ++ [record]) = .ok next)
    (hcheck : checkCumulativeLimits next limits
      (source.utf8Length + (encodeDurableExecutionRecord record ++ [lineBreak]).utf8Length) true = .ok ()) :
    Stored key (source ++ (encodeDurableExecutionRecord record ++ [lineBreak])) next := by
  obtain ⟨hfits, hcount⟩ := checkCumulativeLimits_ok.mp hcheck
  obtain ⟨_, _, hcurrent⟩ := h.check hm
  rw [← journalText_singleton] at hfits ⊢
  exact h.append hm (List.forall_mem_singleton.mpr hsealed) hnext hfits
    ((observe_concat h.observed hnext).settlements_le hcurrent hcount)

/-- The limits refuse a record of an attempt only when it is a settlement too many. -/
theorem Stored.exceedsSettlements {source : Text} {current next : JournalObservation} {record : DurableRecord}
    {equivalent : DurableRecord → Bool} {e : StoreFailure} (h : Stored key source current)
    (hm : limitsMatchIntent current call.limits.val) (hcloses : call.request.closes) (hasks : equivalent ∈ call.asks)
    (hany : current.records.any equivalent = false) (hsealed : WellSealed record) (hequivalent : equivalent record)
    (hnext : observeDurableExecutionJournal (current.records ++ [record]) = .ok next)
    (hcheck : checkCumulativeLimits next call.limits.val
      (source.utf8Length + (encodeDurableExecutionRecord record ++ [lineBreak]).utf8Length) true = .error e) :
    call.request.ExceedsSettlements current := by
  obtain ⟨hstart, hsettlement⟩ := asks_of_closes hcloses hasks hequivalent
  obtain ⟨_, _, hcount⟩ := h.check hm
  by_contra hno
  refine absurd (h.check_advance hm hsealed hnext hstart fun a fields hbody ha => ?_) (by rw [hcheck]; simp)
  obtain ⟨input, hrequest, rfl, hnonce⟩ := hsettlement fields hbody
  refine lt_of_le_of_ne (hcount a ha) fun heq => hno ⟨input, a, hrequest, ha, ?_, ?_, hany⟩
  · cases observe_concat h.observed hnext with
    | providerSettlement fields' a' hbody' ha' hallowed hafter =>
        rw [hbody] at hbody'
        rw [ha] at ha'
        cases hbody'
        cases ha'
        rw [← hnonce, hallowed.nonce]
        rfl
    | attemptStart fields' hbody' => rw [hbody] at hbody'; cases hbody'
    | domainReadback fields' a' hbody' => rw [hbody] at hbody'; cases hbody'
    | lostHandle fields' a' hbody' => rw [hbody] at hbody'; cases hbody'
    | attemptResolution fields' a' hbody' => rw [hbody] at hbody'; cases hbody'
  · rw [heq, (limitsMatchIntent_iff.mp hm).2.2.2]

theorem meets_append {build : JournalObservation → Except StoreFailure DurableRecord}
    {equivalent : DurableRecord → Bool} (hasks : call.asks = [equivalent])
    (hadds : ∀ record, call.request.Adds [record])
    (hbuild : ∀ current record, build current = .ok record → WellSealed record ∧ equivalent record)
    (herror : ∀ current e, call.request.closes → build current = .error e →
      (∀ a, current.activeAttempt = some a → a.providerSettlements.length ≤ 32) → e.isCapacity = false) :
    Meets JournalReads (writerSpec key strict) call lost known
      (append call.limits.val call.request.operationKeyDigest build equivalent) := by
  have hmem {ask : DurableRecord → Bool} : ask ∈ call.asks ↔ ask = equivalent := by rw [hasks, List.mem_singleton]
  refine keeps_bind (keeps_assertDeadline (keeps_bind (keeps_readState (keeps_error (fails_of_isCapacity rfl)) ?_)))
  intro source current hstored _ hm
  dsimp only
  split
  · rename_i hany
    refine keeps_pure ⟨source, rfl, hstored.parsed, fun _ ask hask => ?_⟩
    rw [hmem.mp hask]
    exact List.any_eq_true.mp hany
  · rename_i hany
    refine keeps_bind (keeps_lift (fun record hrecord => ?_) fun e he hcloses hcapacity => ?_)
    · obtain ⟨hsealed, hequivalent⟩ := hbuild current record hrecord
      refine keeps_bind (keeps_observeJournal fun next hnext => ?_)
      refine keeps_bind (keeps_assertCumulativeLimits (fun hcheck => ?_) fun e he hcloses _ => ?_)
      · refine keeps_bind (keeps_identityPath fun _ => keeps_bind (keeps_assertDeadline ?_))
        have happended := hstored.append_record hm hsealed hnext hcheck
        refine keeps_bind (keeps_appendFile ⟨next, happended⟩ ?_ ?_ ?_)
        · refine ⟨[record], List.forall_mem_singleton.mpr hsealed, by rw [journalText_singleton]; rfl, hadds record, ?_⟩
          intro ask hask
          exact ⟨record, List.mem_singleton_self _, hmem.mp hask ▸ hequivalent⟩
        · refine keeps_pure ⟨_, rfl, happended.parsed, fun _ ask hask => ⟨record, ?_, hmem.mp hask ▸ hequivalent⟩⟩
          rw [observe_records hnext]
          exact List.mem_append_right _ (List.mem_singleton_self _)
        · refine keeps_bind (keeps_required fun source' concurrent hstored' _ _ => ?_)
          split
          · rename_i hany'
            refine keeps_pure ⟨source', rfl, hstored'.parsed, fun _ ask hask => ?_⟩
            rw [hmem.mp hask]
            exact List.any_eq_true.mp hany'
          · exact keeps_error (fails_of_isCapacity rfl)
      · exact ⟨source, current, rfl, hstored, fun hm => hstored.exceedsSettlements hm hcloses (hmem.mpr rfl)
          (Bool.not_eq_true _ ▸ hany) hsealed hequivalent hnext he⟩
    · obtain ⟨_, _, hcount⟩ := hstored.check hm
      have hno := herror current e hcloses he fun a ha => (hcount a ha).trans call.limits.bounds.2.2.2
      rw [hno] at hcapacity
      cases hcapacity

/-! ## A new journal -/

/-- The journal of an intent alone. -/
theorem stored_intent {limits : WriterLimits} {input : CreateIntentInput} {intent : DurableRecord}
    {prepared : JournalObservation} (haddress : input.operationKeyDigest = key.val)
    (hintent : intentRecord limits.val input = .ok intent)
    (hobs : observeDurableExecutionJournal [intent] = .ok prepared)
    (hcheck : checkCumulativeLimits prepared limits.val
      (encodeDurableExecutionRecord intent ++ [lineBreak]).utf8Length false = .ok ()) :
    Stored key (encodeDurableExecutionRecord intent ++ [lineBreak]) prepared := by
  obtain ⟨hsealed, hkey, fields, hbody, hlimits⟩ := intentRecord_ok hintent
  obtain ⟨intent', st, haccepts, rfl⟩ := observeDurableExecutionJournal_ok.mp hobs
  obtain ⟨first, rest, fields', heq, hbody', rfl⟩ := haccepts.head
  obtain ⟨rfl, rfl⟩ := List.cons.inj heq
  rw [hbody] at hbody'
  cases hbody'
  have hactive : st.active = none := by
    have hattempts := haccepts.observed.attempts
    have hnone : startedNonces [intent] = [] := by simp [startedNonces, starts, DurableRecord.start?, hbody]
    rw [hnone] at hattempts
    cases hst : st.active with
    | none => rfl
    | some a => rw [hst] at hattempts; simp at hattempts
  have hreserve : (st.observation (intent.as fields) [intent]).reserve limits.val = 0 := by
    simp [JournalObservation.reserve, Observing.observation, hactive]
  refine ⟨?_, Subtype.ext (hkey.trans haddress), limits, limitsMatchIntent_iff.mpr hlimits, ?_, ?_⟩
  · rw [← journalText_singleton,
      parseDurableExecutionJournal_text (by simp) (List.forall_mem_singleton.mpr hsealed), hobs]
  · obtain ⟨hrecords, hbytes, hattempts⟩ := checkCumulativeLimits_unreserved.mp hcheck
    refine ⟨?_, ?_, hattempts⟩
    · rw [hreserve, Nat.add_zero]
      exact hrecords
    · rw [hreserve, Nat.zero_mul, Nat.add_zero]
      exact hbytes
  · intro a ha
    have : st.active = some a := ha
    rw [hactive] at this
    cases this

/-- The intent is the first record. -/
theorem intent_mem {records : List DurableRecord} {obs : JournalObservation}
    (h : observeDurableExecutionJournal records = .ok obs) : ∃ first ∈ records, ∃ fields,
      first.body = .intent fields ∧ first.recordDigest = obs.intent.recordDigest := by
  obtain ⟨intent, st, haccepts, rfl⟩ := observeDurableExecutionJournal_ok.mp h
  obtain ⟨first, rest, fields, rfl, hbody, rfl⟩ := haccepts.head
  exact ⟨first, by simp, fields, hbody, rfl⟩

theorem meets_createIntent {input : CreateIntentInput} (hrequest : call.request = .createIntent input) :
    Meets JournalReads (writerSpec key strict) call lost known (createIntent call.limits.val input) := by
  have haddress : input.operationKeyDigest = key.val := by
    have := call.address
    rwa [hrequest] at this
  have hkey : call.request.operationKeyDigest = input.operationKeyDigest := by rw [hrequest]; rfl
  have hfails (e : StoreFailure) (known : Option Text) : (writerSpec key strict).fails call known e :=
    fails_of_not_closes (by rw [hrequest]; rfl)
  have hmem {ask : DurableRecord → Bool} :
      ask ∈ call.asks ↔ ask = StoreRequest.equivalentIntent call.limits.val input := by
    rw [WriterCall.asks, hrequest]
    exact List.mem_singleton
  refine keeps_bind (keeps_identityPath fun _ => keeps_bind (keeps_assertDeadline ?_))
  refine keeps_bind (keeps_lift (fun intent hintent => ?_) fun e _ => hfails e known)
  refine keeps_bind (keeps_observeJournal fun prepared hprepared => ?_)
  obtain ⟨hsealed, _, fields, hbody, _⟩ := intentRecord_ok hintent
  have hask (record : DurableRecord) (fields : IntentFields) (hbody : record.body = .intent fields)
      (hdigest : record.recordDigest = intent.recordDigest) :
      StoreRequest.equivalentIntent call.limits.val input record := by
    simp [StoreRequest.equivalentIntent, hbody, hintent, hdigest]
  refine keeps_bind (keeps_assertCumulativeLimits (fun hcheck => ?_) fun e _ => hfails e known)
  refine keeps_bind (keeps_assertDeadline ?_)
  have hstored := stored_intent haddress hintent hprepared hcheck
  refine keeps_bind (keeps_createFile ⟨prepared, hstored⟩ ?_ ?_ ?_)
  · refine ⟨[intent], List.forall_mem_singleton.mpr hsealed, by rw [journalText_singleton]; rfl, ?_, ?_⟩
    · rw [hrequest]
      exact ⟨intent, rfl⟩
    · intro ask hask'
      exact ⟨intent, List.mem_singleton_self _, hmem.mp hask' ▸ hask intent fields hbody rfl⟩
  · refine keeps_observeJournal fun next hnext => ⟨_, rfl, ?_, fun _ ask hask' => ?_⟩
    · rw [hstored.parsed, ← hprepared, hnext]
    · rw [observe_records hnext]
      exact ⟨intent, List.mem_singleton_self _, hmem.mp hask' ▸ hask intent fields hbody rfl⟩
  · rw [← hkey]
    refine keeps_bind (keeps_required fun source current hcurrent _ _ => ?_)
    split
    · rename_i hdigest
      refine keeps_pure ⟨source, rfl, hcurrent.parsed, fun _ ask hask' => ?_⟩
      obtain ⟨first, hfirst, fields', hbody', hfirstDigest⟩ := intent_mem hcurrent.observed
      exact ⟨first, hfirst, hmem.mp hask' ▸ hask first fields' hbody' (hfirstDigest.trans hdigest)⟩
    · exact keeps_error (hfails _ _)

/-! ## A recovered retry -/

theorem activeAttempt_mem {records : List DurableRecord} {obs : JournalObservation} {active : AttemptObservation}
    (h : observeDurableExecutionJournal records = .ok obs) (ha : obs.activeAttempt = some active) :
    ∃ record ∈ records, record.body = .attemptStart active.start.fields := by
  obtain ⟨intent, st, haccepts, rfl⟩ := observeDurableExecutionJournal_ok.mp h
  exact start_mem (List.mem_of_getLast? (haccepts.observed.active active ha).1)

/-- A sound answer to a recovered retry has its start and its resolution. -/
theorem retrySound_asks {resolution : AppendAttemptResolutionInput} {start : AppendAttemptStartInput}
    {source : Text} {concurrent : JournalObservation} {limits : StoreLimits} (hstored : Stored key source concurrent)
    (hsound : (StoreRequest.appendRecoveredRetryAttemptStart resolution start).RetrySound source)
    (hretry : concurrentRetry resolution start concurrent) :
    ∀ ask ∈ (StoreRequest.appendRecoveredRetryAttemptStart resolution start).asks limits,
      ∃ r ∈ concurrent.records, ask r := by
  obtain ⟨⟨active, hactive, hsame⟩, hresolved⟩ := hsound resolution start concurrent rfl hstored.parsed hretry
  obtain ⟨started, hstarted, hbody⟩ := activeAttempt_mem hstored.observed hactive
  intro ask hask
  simp only [StoreRequest.asks, List.mem_cons, List.not_mem_nil, or_false] at hask
  rcases hask with rfl | rfl
  · exact List.any_eq_true.mp hresolved
  · exact ⟨started, hstarted, by rw [equivalentAttemptStart, hbody]; exact hsame⟩

theorem meets_appendRecoveredRetryAttemptStart {resolution : AppendAttemptResolutionInput}
    {start : AppendAttemptStartInput} (hrequest : call.request = .appendRecoveredRetryAttemptStart resolution start) :
    Meets JournalReads (writerSpec key strict) call lost known
      (appendRecoveredRetryAttemptStart call.limits.val resolution start) := by
  have hkey : resolution.operationKeyDigest = call.request.operationKeyDigest := by rw [hrequest]; rfl
  have hasks : call.asks = (StoreRequest.appendRecoveredRetryAttemptStart resolution start).asks call.limits.val := by
    rw [WriterCall.asks, hrequest]
  have hfails (e : StoreFailure) (known : Option Text) : (writerSpec key strict).fails call known e :=
    fails_of_not_closes (by rw [hrequest]; rfl)
  unfold appendRecoveredRetryAttemptStart
  rw [hkey]
  refine keeps_bind (keeps_assertDeadline (keeps_bind (keeps_readState (keeps_error (hfails _ _)) ?_)))
  intro source current hstored _ hm
  dsimp only
  split
  · exact keeps_error (hfails _ _)
  rename_i activeAttempt hactive
  split
  · exact keeps_error (hfails _ _)
  refine keeps_bind (keeps_lift (fun resolved hresolved => ?_) fun e _ => hfails e _)
  obtain ⟨hresolvedSealed, hresolvedAsk, resolvedFields, hresolvedBody⟩ := resolutionRecord_equivalent hresolved
  refine keeps_bind (keeps_observeJournal fun admitted hadmitted => ?_)
  refine keeps_bind (keeps_lift (fun started hstarted => ?_) fun e _ => hfails e _)
  obtain ⟨hstartedSealed, hstartedAsk⟩ := attemptStartRecord_equivalent hstarted
  obtain ⟨_, startedFields, hstartedBody, _⟩ := attemptStartRecord_ok hstarted
  refine keeps_bind (keeps_observeJournal fun next hnext => ?_)
  rw [observe_records hadmitted] at hnext
  have hfresh : ∀ a, next.activeAttempt = some a →
      a.providerSettlements.length ≤ call.limits.val.maximumProviderSettlementsPerAttempt := by
    intro a ha
    cases observe_concat hadmitted hnext with
    | attemptStart fields body inactive active =>
        rw [active, Option.some.injEq] at ha
        subst ha
        exact Nat.zero_le _
    | providerSettlement fields a body => rw [hstartedBody] at body; cases body
    | domainReadback fields a body => rw [hstartedBody] at body; cases body
    | lostHandle fields a body => rw [hstartedBody] at body; cases body
    | attemptResolution fields a body => rw [hstartedBody] at body; cases body
  rw [List.append_assoc, List.singleton_append] at hnext
  have htext : encodeDurableExecutionRecord resolved ++ [lineBreak] ++ (encodeDurableExecutionRecord started ++ [lineBreak]) =
      journalText [resolved, started] := by simp [journalText]
  have hsealed : ∀ r ∈ [resolved, started], WellSealed r := by
    simp only [List.forall_mem_cons]
    exact ⟨hresolvedSealed, hstartedSealed, by simp⟩
  have hadded : ∀ ask ∈ call.asks, ∃ r ∈ [resolved, started], ask r := by
    intro ask hask
    rw [hasks] at hask
    simp only [StoreRequest.asks, List.mem_cons, List.not_mem_nil, or_false] at hask
    rcases hask with rfl | rfl
    · exact ⟨resolved, by simp, hresolvedAsk⟩
    · exact ⟨started, by simp, hstartedAsk⟩
  rw [htext]
  refine keeps_bind (keeps_assertCumulativeLimits (fun hcheck => ?_) fun e _ => hfails e _)
  refine keeps_bind (keeps_identityPath fun _ => keeps_bind (keeps_assertDeadline ?_))
  have happended := hstored.append hm hsealed hnext (checkCumulativeLimits_ok.mp hcheck).1 hfresh
  refine keeps_bind (keeps_appendFile ⟨next, happended⟩ ?_ ?_ ?_)
  · refine ⟨[resolved, started], hsealed, rfl, ?_, hadded⟩
    rw [hrequest]
    exact ⟨resolved, started, resolvedFields, startedFields, rfl, hresolvedBody, hstartedBody⟩
  · refine keeps_pure ⟨_, rfl, happended.parsed, fun _ ask hask => ?_⟩
    obtain ⟨r, hr, hp⟩ := hadded ask hask
    exact ⟨r, by rw [observe_records hnext]; exact List.mem_append_right _ hr, hp⟩
  · refine keeps_bind (keeps_required fun source' concurrent hconcurrent hsound _ => ?_)
    split
    · rename_i hretry
      refine keeps_pure ⟨source', rfl, hconcurrent.parsed, fun hstrict => ?_⟩
      rw [hasks]
      exact retrySound_asks hconcurrent (hrequest ▸ hsound hstrict rfl) hretry
    · exact keeps_error (hfails _ _)

/-! ## All operations -/

/-- Every call on the journal meets the specification. -/
theorem meets_program (call : WriterCall key) :
    Meets JournalReads (writerSpec key strict) call lost known call.program := by
  have happend {build : JournalObservation → Except StoreFailure DurableRecord} {equivalent : DurableRecord → Bool}
      (hasks : call.request.asks call.limits.val = [equivalent]) (hadds : ∀ record, call.request.Adds [record])
      (hbuild : ∀ current record, build current = .ok record → WellSealed record ∧ equivalent record)
      (herror : ∀ current e, call.request.closes → build current = .error e →
        (∀ a, current.activeAttempt = some a → a.providerSettlements.length ≤ 32) → e.isCapacity = false) :
      Meets JournalReads (writerSpec key strict) call lost known
        (append call.limits.val call.request.operationKeyDigest build equivalent) :=
    meets_append hasks hadds hbuild herror
  revert happend
  unfold WriterCall.program
  generalize hr : call.request = request
  intro happend
  cases request with
  | createIntent input => exact meets_createIntent hr
  | appendAttemptStart input =>
      exact happend rfl (fun record => ⟨record, rfl⟩) (fun _ _ h => attemptStartRecord_equivalent h)
        fun _ _ hcloses => by cases hcloses
  | appendRecoveredRetryAttemptStart resolution start => exact meets_appendRecoveredRetryAttemptStart hr
  | appendProviderSettlementReference input =>
      exact happend rfl (fun record => ⟨record, rfl⟩) (fun _ _ h => providerSettlementRecord_equivalent h)
        fun _ _ _ h _ => isCapacity_providerSettlementRecord h
  | appendDomainReadbackReference input =>
      exact happend rfl (fun record => ⟨record, rfl⟩) (fun _ _ h => domainReadbackRecord_equivalent h)
        fun _ _ _ h _ => isCapacity_domainReadbackRecord h
  | appendLostHandleReference input =>
      exact happend rfl (fun record => ⟨record, rfl⟩) (fun _ _ h => lostHandleRecord_equivalent h)
        fun _ _ _ h _ => isCapacity_lostHandleRecord h
  | appendAttemptResolution input =>
      exact happend rfl (fun record => ⟨record, rfl⟩) (fun _ _ h => attemptResolutionRecord_equivalent h)
        fun _ _ _ h hn => isCapacity_attemptResolutionRecord hn h

end SecPlatform.DurableExecution
