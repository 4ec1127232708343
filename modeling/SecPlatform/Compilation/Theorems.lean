import SecPlatform.Compilation.Lemmas.Retention
import SecPlatform.Library.Run

/-!
# Theorems of the pipeline journal

A stored journal stays accepted under every sequence of calls. A call in order is published; a commit or a fail that
would leave the last committed transaction behind is not. The status of a settled transaction stays unless a
commit names a failed transaction or a fail a succeeded one.
-/

namespace SecPlatform.Compilation

open Contracts

/-! ## Calls -/

/-- What a call promises to the journal it meets: bounded texts, stages and an id of its own, room for its pass. -/
def JournalCall.WellFormed (journal : PipelineJournal) : JournalCall → Prop
  | .start source requestedStages uuid _ => requestedStages.Nodup ∧
      (source ≠ .reference → isBounded 4096 (startedTransactionId source uuid) ∧
        startedTransactionId source uuid ∉ journal.transactions.map PipelineTransactionRecord.id)
  | .passStart transactionId _ _ =>
      ∀ t ∈ journal.transactions, t.id = transactionId → t.passRecords.length < 128
  | .passBlocked transactionId _ errorCode message _ =>
      (∀ t ∈ journal.transactions, t.id = transactionId → t.passRecords.length < 128) ∧
        isBounded 4096 errorCode ∧ isBounded 16384 message
  | .passFailure _ _ errorCode message _ | .fail _ errorCode message _ =>
      isBounded 4096 errorCode ∧ isBounded 16384 message
  | .passSuccess .. | .commit .. => True

/-- The call leaves the latest success the last committed transaction. -/
def JournalCall.InOrder (journal : PipelineJournal) : JournalCall → Prop
  | .commit transactionId _ => ¬SucceededAfter transactionId journal.transactions
  | .fail transactionId _ _ _ => journal.lastCommittedTransactionId ≠ some transactionId
  | _ => True

/-- The id under which a call starts a transaction. -/
def JournalCall.startedId : JournalCall → Option Text
  | .start source _ uuid _ => some (startedTransactionId source uuid)
  | _ => none

/-- The transaction that a call other than a start is about. -/
def JournalCall.transactionId : JournalCall → Option Text
  | .start .. => none
  | .passStart transactionId .. | .passBlocked transactionId .. | .passSuccess transactionId ..
  | .passFailure transactionId .. | .commit transactionId _ | .fail transactionId .. => some transactionId

/-- The status that a call gives to its transaction. -/
def JournalCall.statusAfter (status : PipelineTransactionStatus) : JournalCall → PipelineTransactionStatus
  | .commit .. => .succeeded
  | .fail .. => .failed
  | _ => status

variable {files : JournalFiles} {journal mutated : PipelineJournal} {call : JournalCall}

theorem mutate_consistent_iff (h : journal.Consistent) (hcall : call.WellFormed journal)
    (hmutate : call.mutate journal = .ok mutated) : mutated.Consistent ↔ call.InOrder journal := by
  cases call with
  | start source requestedStages uuid now =>
      obtain rfl := Except.ok.inj hmutate
      exact iff_of_true (start_consistent now h hcall.1 hcall.2).1 trivial
  | passStart transactionId passId now => exact iff_of_true (passStart_consistent h hcall hmutate) trivial
  | passBlocked transactionId passId errorCode message now =>
      exact iff_of_true (passBlocked_consistent h hcall.1 hcall.2.1 hcall.2.2 hmutate) trivial
  | passSuccess transactionId passId now => exact iff_of_true (passSuccess_consistent h hmutate) trivial
  | passFailure transactionId passId errorCode message now =>
      exact iff_of_true (passFailure_consistent h hcall.1 hcall.2 hmutate) trivial
  | commit transactionId now => exact commit_consistent_iff h hmutate
  | fail transactionId errorCode message now => exact fail_consistent_iff h hcall.1 hcall.2 hmutate

theorem releaseActive_transactions {id : Text} : (releaseActive id journal).transactions = journal.transactions := by
  unfold releaseActive
  split <;> rfl

/-- A transaction in its place among the others, before and after a call. -/
structure Replaces (call : JournalCall) (journal mutated : PipelineJournal) (before : List PipelineTransactionRecord)
    (old new : PipelineTransactionRecord) (after : List PipelineTransactionRecord) : Prop where
  split : journal.transactions = before ++ old :: after
  split' : mutated.transactions = before ++ new :: after
  retirements : mutated.retirements = journal.retirements
  id : new.id = old.id
  transactionId : call.transactionId = some old.id
  status : new.status = call.statusAfter old.status

theorem Replaces.of_update {transactionId : Text}
    {change : PipelineTransactionRecord → Except Text PipelineTransactionRecord}
    (hupdate : updateTransaction journal transactionId change = .ok mutated)
    (hid : call.transactionId = some transactionId)
    (hchange : ∀ old new, change old = .ok new → new.id = old.id ∧ new.status = call.statusAfter old.status) :
    ∃ before old new after, Replaces call journal mutated before old new after := by
  obtain ⟨before, old, new, after, hsplit, rfl, hnew, rfl⟩ := updateTransaction_eq_ok hupdate
  exact ⟨before, old, new, after, hsplit, rfl, rfl, (hchange old new hnew).1, hid, (hchange old new hnew).2⟩

theorem updateRunningPass_same {t t' : PipelineTransactionRecord} {passId : PassId}
    {change : PipelinePassRecord → PipelinePassRecord} (h : updateRunningPass t passId change = .ok t') :
    t'.id = t.id ∧ t'.status = t.status := by
  obtain ⟨-, h⟩ := check_bind_eq_ok.mp h
  obtain rfl := Except.ok.inj h
  exact ⟨rfl, rfl⟩

/-- A released journal differs in its active transaction alone. -/
theorem Replaces.released {before after : List PipelineTransactionRecord} {old new : PipelineTransactionRecord}
    {id : Text} (h : Replaces call journal mutated before old new after) :
    Replaces call journal (releaseActive id mutated) before old new after := by
  unfold releaseActive
  split
  · exact ⟨h.split, h.split', h.retirements, h.id, h.transactionId, h.status⟩
  · exact h

/-- What a call can do: it starts a transaction, or it replaces one. -/
theorem mutate_cases (hmutate : call.mutate journal = .ok mutated) :
    (∃ source requestedStages uuid now, call = .start source requestedStages uuid now ∧
      mutated = startPipelineTransaction source requestedStages uuid now journal) ∨
    ∃ before old new after, Replaces call journal mutated before old new after := by
  cases call with
  | start source requestedStages uuid now => exact .inl ⟨_, _, _, _, rfl, (Except.ok.inj hmutate).symm⟩
  | passStart transactionId passId now =>
      refine .inr (Replaces.of_update hmutate rfl fun old new hnew => ?_)
      obtain rfl := Except.ok.inj hnew
      exact ⟨rfl, rfl⟩
  | passBlocked transactionId passId errorCode message now =>
      refine .inr (Replaces.of_update hmutate rfl fun old new hnew => ?_)
      obtain rfl := Except.ok.inj hnew
      exact ⟨rfl, rfl⟩
  | passSuccess transactionId passId now =>
      exact .inr (Replaces.of_update hmutate rfl fun _ _ hnew => updateRunningPass_same hnew)
  | passFailure transactionId passId errorCode message now =>
      exact .inr (Replaces.of_update hmutate rfl fun _ _ hnew => updateRunningPass_same hnew)
  | commit transactionId now =>
      obtain ⟨updated, hupdate, hrelease⟩ := bind_eq_ok.mp hmutate
      obtain rfl := Except.ok.inj hrelease
      obtain ⟨before, old, new, after, hsplit, rfl, hnew, rfl⟩ := updateTransaction_eq_ok hupdate
      obtain rfl := Except.ok.inj hnew
      exact .inr ⟨before, old, _, after, Replaces.released ⟨hsplit, rfl, rfl, rfl, rfl, rfl⟩⟩
  | fail transactionId errorCode message now =>
      obtain ⟨updated, hupdate, hrelease⟩ := bind_eq_ok.mp hmutate
      obtain rfl := Except.ok.inj hrelease
      obtain ⟨before, old, new, after, hsplit, rfl, hnew, rfl⟩ := updateTransaction_eq_ok hupdate
      obtain rfl := Except.ok.inj hnew
      exact .inr ⟨before, old, _, after, Replaces.released ⟨hsplit, rfl, rfl, rfl, rfl, rfl⟩⟩

/-- Only a start makes a journal longer. It is in order, and its transaction is the last one. -/
theorem mutate_length (hmutate : call.mutate journal = .ok mutated) :
    mutated.transactions.length = journal.transactions.length ∨
      call.InOrder journal ∧ ∃ ts t, mutated.transactions = ts ++ [t] ∧ t.status = .running := by
  rcases mutate_cases hmutate with ⟨_, _, _, _, rfl, rfl⟩ | ⟨before, old, new, after, hreplaces⟩
  · exact .inr ⟨trivial, _, _, rfl, rfl⟩
  · rw [hreplaces.split, hreplaces.split']
    exact .inl (by simp)

theorem mutate_long (h : journal.Valid) (hmutate : call.mutate journal = .ok mutated)
    (hlong : MAX_RETAINED_TRANSACTIONS < mutated.transactions.length) :
    call.InOrder journal ∧ ∃ ts t, mutated.transactions = ts ++ [t] ∧ t.status = .running := by
  have hcount := h.count
  exact (mutate_length hmutate).resolve_left (by omega)

/-- The retained journal of a well-formed call is valid exactly when the call is in order. -/
theorem retain_mutate_valid_iff (h : journal.Valid) (hcall : call.WellFormed journal)
    (hmutate : call.mutate journal = .ok mutated) :
    (retainJournalTransactions mutated).Valid ↔ call.InOrder journal := by
  constructor
  · intro hvalid
    by_cases hlong : MAX_RETAINED_TRANSACTIONS < mutated.transactions.length
    · exact (mutate_long h hmutate hlong).1
    · rw [retain_of_le (Nat.le_of_not_lt hlong)] at hvalid
      exact (mutate_consistent_iff h.toConsistent hcall hmutate).mp hvalid.toConsistent
  · intro horder
    have hconsistent := (mutate_consistent_iff h.toConsistent hcall hmutate).mpr horder
    exact retain_valid hconsistent fun hlong => (mutate_long h hmutate hlong).2

/-! ## The stored journal -/

/-- The journal that a stored value is. -/
def storedJournal (journalPath : Text) : Option Value → Except Text PipelineJournal
  | none => .ok emptyJournal
  | some value => validateJournal journalPath value

theorem emptyJournal_valid : emptyJournal.Valid :=
  ⟨⟨nofun, List.nodup_nil, rfl, rfl, nofun⟩, Nat.zero_le _⟩

theorem storedJournal_valid {journalPath : Text} {stored : Option Value}
    (h : storedJournal journalPath stored = .ok journal) : journal.Valid := by
  cases stored with
  | none =>
      obtain rfl := Except.ok.inj h
      exact emptyJournal_valid
  | some value => exact validateJournal_valid h

/-- What a published call has done. -/
theorem mutateJournal_eq_ok {stored : Option Value} {value : Value} :
    mutateJournal files call stored = .ok value ↔ ∃ journal mutated, readJournal files stored = .ok journal ∧
      call.mutate journal = .ok mutated ∧ (retainJournalTransactions mutated).Valid ∧
      value = (retainJournalTransactions mutated).toValue := by
  unfold mutateJournal
  simp only [bind_eq_ok, validateJournal_toValue, pure_eq_ok, Except.ok.injEq]
  constructor
  · rintro ⟨journal, hread, mutated, hmutate, validated, ⟨rfl, hvalid⟩, rfl⟩
    exact ⟨journal, mutated, hread, hmutate, hvalid, rfl⟩
  · rintro ⟨journal, mutated, hread, hmutate, hvalid, rfl⟩
    exact ⟨journal, hread, mutated, hmutate, _, ⟨rfl, hvalid⟩, rfl⟩

/-- What a journal promises to the next call: its mutation, with the oldest transactions dropped, is accepted when the
call is in order, and the running and the last committed transaction are not dropped. -/
structure NextCallLaw (journalPath : Text) (journal : PipelineJournal) (call : JournalCall)
    (mutated : PipelineJournal) : Prop where
  accepted : Succeeds (validateJournal journalPath (retainJournalTransactions mutated).toValue) ↔ call.InOrder journal
  retained : ∀ t ∈ mutated.transactions,
    t.status = .running ∨ mutated.lastCommittedTransactionId = some t.id →
      t ∈ (retainJournalTransactions mutated).transactions

theorem nextCallLaw {journalPath : Text} (h : journal.Valid) (hcall : call.WellFormed journal)
    (hmutate : call.mutate journal = .ok mutated) : NextCallLaw journalPath journal call mutated where
  accepted := by
    rw [← retain_mutate_valid_iff h hcall hmutate]
    constructor
    · rintro ⟨validated, hvalidated⟩
      exact (validateJournal_toValue.mp hvalidated).2
    · exact fun hvalid => ⟨_, validateJournal_toValue.mpr ⟨rfl, hvalid⟩⟩
  retained := by
    intro t ht hkept
    by_cases hlong : MAX_RETAINED_TRANSACTIONS < mutated.transactions.length
    · obtain ⟨horder, hlast⟩ := mutate_long h hmutate hlong
      have hconsistent := (mutate_consistent_iff h.toConsistent hcall hmutate).mpr horder
      exact retain_keeps hconsistent (fun _ => hlast) ht hkept
    · rwa [retain_of_le (Nat.le_of_not_lt hlong)]

theorem readJournal_eq_ok {stored : Option Value} (h : readJournal files stored = .ok journal) :
    storedJournal files.journalPath stored = .ok journal ∧ validateRetirementEvidence files journal = .ok () := by
  cases stored with
  | none =>
      obtain rfl := Except.ok.inj h
      exact ⟨rfl, rfl⟩
  | some raw =>
      obtain ⟨-, h⟩ := check_bind_eq_ok.mp h
      obtain ⟨validated, hvalidated, h⟩ := bind_eq_ok.mp h
      obtain ⟨hevidence, h⟩ := check_bind_eq_ok.mp h
      obtain rfl := Except.ok.inj h
      exact ⟨hvalidated, hevidence⟩

/-- Every call leaves an accepted journal stored. -/
theorem storedJournal_step {stored stored' : Option Value} (h : Succeeds (storedJournal files.journalPath stored))
    (hstep : JournalStep files stored call stored') : Succeeds (storedJournal files.journalPath stored') := by
  cases hstep with
  | published hvalue =>
      obtain ⟨read, mutated, -, -, hvalid, rfl⟩ := mutateJournal_eq_ok.mp hvalue
      exact ⟨_, validateJournal_toValue.mpr ⟨rfl, hvalid⟩⟩
  | stopped => exact h

/-- The journal stored after any sequence of calls is accepted, and so is what a further call makes of it, exactly when
that call is in order. -/
theorem journalRun_lawful {stored : Option Value} {calls : List JournalCall}
    (h : Succeeds (storedJournal files.journalPath stored)) {stored' : Option Value}
    (hrun : Run (JournalStep files) (· = stored) calls stored') :
    ∃ journal, storedJournal files.journalPath stored' = .ok journal ∧ journal.Valid ∧
      ∀ call mutated, call.WellFormed journal → call.mutate journal = .ok mutated →
        NextCallLaw files.journalPath journal call mutated := by
  have hreached : Succeeds (storedJournal files.journalPath stored') := by
    refine hrun.invariant (P := fun _ s => Succeeds (storedJournal files.journalPath s)) ?_ ?_
    · rintro s rfl
      exact h
    · exact fun _ _ _ _ hs hstep => storedJournal_step hs hstep
  obtain ⟨journal, hjournal⟩ := hreached
  have hvalid := storedJournal_valid hjournal
  exact ⟨journal, hjournal, hvalid, fun call mutated hcall hmutate => nextCallLaw hvalid hcall hmutate⟩

/-! ### A fail of the last committed transaction -/

def sampleFiles : JournalFiles := ⟨"pipeline-journal.json", fun _ => .ok ()⟩

def sampleTime : Timestamp := ⟨"2026-01-01T00:00:00.000Z", by decide⟩

def sampleTransaction (id : Text) (status : PipelineTransactionStatus) (completedAt errorCode message : Option Text) :
    PipelineTransactionRecord := ⟨⟨sampleTime.val, completedAt, errorCode, message⟩, id, .api, [.resolve], status, []⟩

def startedJournal : PipelineJournal :=
  ⟨some "tx:1", none, [sampleTransaction "tx:1" .running none none none], none⟩

def committedJournal : PipelineJournal :=
  ⟨none, some "tx:1", [sampleTransaction "tx:1" .succeeded (some sampleTime.val) none none], none⟩

def sampleStart (uuid : Text) : JournalCall := .start .api [.resolve] uuid sampleTime

theorem started_run :
    Run (JournalStep sampleFiles) (· = none) [sampleStart "1"] (some startedJournal.toValue) := by
  have hstep : JournalStep sampleFiles none (sampleStart "1") (some startedJournal.toValue) :=
    .published (by decide)
  have hnil : Run (JournalStep sampleFiles) (· = none) [] none := .nil rfl
  exact hnil.snoc hstep

theorem journalRun_lawful_started : ∃ journal,
    storedJournal sampleFiles.journalPath (some startedJournal.toValue) = .ok journal ∧ journal.Valid ∧
      ∀ call mutated, call.WellFormed journal → call.mutate journal = .ok mutated →
        NextCallLaw sampleFiles.journalPath journal call mutated :=
  journalRun_lawful ⟨emptyJournal, rfl⟩ started_run

theorem failed_lastCommitted_rejected :
    validateJournal sampleFiles.journalPath committedJournal.toValue = .ok committedJournal ∧
    (JournalCall.fail "tx:1" "E" "m" sampleTime).WellFormed committedJournal ∧
    ∃ mutated, (JournalCall.fail "tx:1" "E" "m" sampleTime).mutate committedJournal = .ok mutated ∧
      validateJournal sampleFiles.journalPath (retainJournalTransactions mutated).toValue =
        .error "Pipeline journal last committed transaction is inconsistent at pipeline-journal.json" := by
  refine ⟨by decide, ⟨by decide, by decide⟩,
    ⟨none, some "tx:1", [sampleTransaction "tx:1" .failed (some sampleTime.val) (some "E") (some "m")], none⟩, rfl, ?_⟩
  decide

/-! ## Settled transactions -/

/-- A commit of no failed transaction and a fail of no succeeded one, except those that publication refuses. -/
def JournalCall.Permitted (journal : PipelineJournal) : JournalCall → Prop
  | .commit transactionId _ => ∀ t ∈ journal.transactions, t.id = transactionId → t.status = .failed →
      SucceededAfter transactionId journal.transactions
  | .fail transactionId errorCode message _ => ∀ t ∈ journal.transactions, t.id = transactionId →
      t.status = .succeeded → journal.lastCommittedTransactionId = some transactionId ∨
        ¬(isBounded 4096 errorCode ∧ isBounded 16384 message)
  | _ => True

/-- A settled transaction keeps its status, unless the call starts another one under its id. -/
def KeepsSettled (call : JournalCall) (journal journal' : PipelineJournal) : Prop :=
  ∀ t ∈ journal.transactions, t.status ≠ .running → call.startedId ≠ some t.id →
    ∀ t' ∈ journal'.transactions, t'.id = t.id → t'.status = t.status

theorem retain_subset : (retainJournalTransactions journal).transactions ⊆ journal.transactions := by
  unfold retainJournalTransactions
  dsimp only
  split
  · exact List.Subset.refl _
  · split
    next => exact List.drop_subset _ _
    next committed hcommitted =>
      obtain ⟨id, -, hfound⟩ := Option.bind_eq_some_iff.mp hcommitted
      split
      · exact List.drop_subset _ _
      · exact List.cons_subset.mpr ⟨List.mem_of_find?_eq_some hfound, List.drop_subset _ _⟩

theorem start_keepsSettled {source : PipelineSource} {requestedStages : List PipelineStageId} {uuid : Text}
    {now : Timestamp} (h : journal.Consistent) : KeepsSettled (.start source requestedStages uuid now) journal
      (startPipelineTransaction source requestedStages uuid now journal) := by
  intro t ht hsettled hid t' ht' hsame
  have hother : t' ∈ (interruptActiveTransaction journal now).transactions := by
    unfold startPipelineTransaction at ht'
    rcases List.mem_append.mp ht' with ht' | ht'
    · by_cases hsource : source = .reference
      · simp only [if_pos hsource, rebindLastCommittedTransaction] at ht'
        exact List.mem_of_mem_filter ht'
      · simpa only [if_neg hsource] using ht'
    · obtain rfl := List.mem_singleton.mp ht'
      exact absurd (congrArg some hsame) hid
  rcases interrupt_eq now h with ⟨-, heq⟩ | ⟨before, active, after, hsplit, hrunning, -, heq⟩
  · rw [heq] at hother
    rw [eq_of_id h.ids hother ht hsame]
  · rw [heq] at hother
    have hunchanged (hmem : t' ∈ journal.transactions) : t'.status = t.status := by
      rw [eq_of_id h.ids hmem ht hsame]
    rcases List.mem_append.mp hother with hmem | hmem
    · exact hunchanged (hsplit ▸ List.mem_append_left _ hmem)
    · rcases List.mem_cons.mp hmem with rfl | hmem
      · have hactive : active ∈ journal.transactions := hsplit ▸ List.mem_append_right _ List.mem_cons_self
        obtain rfl := eq_of_id h.ids hactive ht hsame
        exact absurd hrunning hsettled
      · exact hunchanged (hsplit ▸ List.mem_append_right _ (List.mem_cons_of_mem _ hmem))

/-- A replaced journal that is valid keeps every settled transaction, when the call is permitted. -/
theorem replaces_keepsSettled {before after : List PipelineTransactionRecord} {old new : PipelineTransactionRecord}
    (h : journal.Consistent) (hreplaces : Replaces call journal mutated before old new after)
    (hstatus : old.status ≠ .running → new.status = old.status) : KeepsSettled call journal mutated := by
  intro t ht hsettled _ t' ht' hsame
  have hunchanged (hmem : t' ∈ journal.transactions) : t'.status = t.status := by rw [eq_of_id h.ids hmem ht hsame]
  rw [hreplaces.split'] at ht'
  rcases List.mem_append.mp ht' with hmem | hmem
  · exact hunchanged (hreplaces.split ▸ List.mem_append_left _ hmem)
  · rcases List.mem_cons.mp hmem with rfl | hmem
    · have hold : old ∈ journal.transactions := hreplaces.split ▸ List.mem_append_right _ List.mem_cons_self
      obtain rfl := eq_of_id h.ids hold ht (hreplaces.id.symm.trans hsame)
      exact hstatus hsettled
    · exact hunchanged (hreplaces.split ▸ List.mem_append_right _ (List.mem_cons_of_mem _ hmem))

/-- The texts of a fail that leaves a consistent journal are bounded. -/
theorem fail_bounded {transactionId errorCode message completedAt : Text} (hmutated : mutated.Consistent)
    (hfail : failPipelineTransaction transactionId errorCode message completedAt journal = .ok mutated) :
    isBounded 4096 errorCode ∧ isBounded 16384 message := by
  obtain ⟨updated, hupdate, hrelease⟩ := bind_eq_ok.mp hfail
  obtain rfl := Except.ok.inj hrelease
  obtain ⟨before, old, new, after, -, -, hchange, rfl⟩ := updateTransaction_eq_ok hupdate
  obtain rfl := Except.ok.inj hchange
  have hall := hmutated.transactions
  rw [releaseActive_transactions] at hall
  have hnew := hall _ (List.mem_append_right _ List.mem_cons_self)
  exact ⟨hnew.lifetime.errorCode _ rfl, hnew.lifetime.message _ rfl⟩

/-- A permitted call that leaves a consistent journal does not change the status of a settled transaction. -/
theorem statusAfter_eq {old : PipelineTransactionRecord} (h : journal.Consistent) (hpermitted : call.Permitted journal)
    (hmutate : call.mutate journal = .ok mutated) (hmutated : mutated.Consistent) (hold : old ∈ journal.transactions)
    (hid : call.transactionId = some old.id) (hsettled : old.status ≠ .running) :
    call.statusAfter old.status = old.status := by
  cases call with
  | start => rfl
  | passStart => rfl
  | passBlocked => rfl
  | passSuccess => rfl
  | passFailure => rfl
  | commit transactionId now =>
      obtain rfl := Option.some.inj hid
      cases hstatus : old.status with
      | running => exact absurd hstatus hsettled
      | succeeded => rfl
      | failed =>
          exact absurd (hpermitted old hold rfl hstatus) ((commit_consistent_iff h hmutate).mp hmutated)
  | fail transactionId errorCode message now =>
      obtain rfl := Option.some.inj hid
      obtain ⟨hcode, hmessage⟩ := fail_bounded hmutated hmutate
      cases hstatus : old.status with
      | running => exact absurd hstatus hsettled
      | failed => rfl
      | succeeded =>
          have hlast := (hpermitted old hold rfl hstatus).resolve_right (not_not.mpr ⟨hcode, hmessage⟩)
          exact absurd hlast ((fail_consistent_iff h hcode hmessage hmutate).mp hmutated)

/-- A published call that is permitted keeps every settled transaction. -/
theorem mutate_keepsSettled (h : journal.Valid) (hpermitted : call.Permitted journal)
    (hmutate : call.mutate journal = .ok mutated) (hvalid : (retainJournalTransactions mutated).Valid) :
    KeepsSettled call journal mutated := by
  rcases mutate_cases hmutate with ⟨_, _, _, _, rfl, rfl⟩ | ⟨before, old, new, after, hreplaces⟩
  · exact start_keepsSettled h.toConsistent
  · have hcount := h.count
    rw [hreplaces.split] at hcount
    rw [retain_of_le (by rw [hreplaces.split']; simpa using hcount)] at hvalid
    refine replaces_keepsSettled h.toConsistent hreplaces fun hsettled => ?_
    have hold : old ∈ journal.transactions := hreplaces.split ▸ List.mem_append_right _ List.mem_cons_self
    rw [hreplaces.status]
    exact statusAfter_eq h.toConsistent hpermitted hmutate hvalid.toConsistent hold hreplaces.transactionId hsettled

theorem updateTransaction_succeeds {transactionId : Text}
    (change : PipelineTransactionRecord → PipelineTransactionRecord) {t : PipelineTransactionRecord}
    (ht : t ∈ journal.transactions) (hid : t.id = transactionId) :
    Succeeds (updateTransaction journal transactionId fun t => .ok (change t)) := by
  obtain ⟨found, hfound⟩ : ∃ found, journal.transactions.find? (fun entry => entry.id = transactionId) = some found := by
    rw [← Option.isSome_iff_exists, List.find?_isSome]
    exact ⟨t, ht, by simpa using hid⟩
  unfold updateTransaction
  rw [hfound]
  exact ⟨_, rfl⟩

/-- A call that changes the status of a settled transaction does not keep it. -/
theorem not_keepsSettled {t : PipelineTransactionRecord} (h : journal.Valid)
    (hmutate : call.mutate journal = .ok mutated) (ht : t ∈ journal.transactions)
    (hid : call.transactionId = some t.id) (hsettled : t.status ≠ .running)
    (hchanged : call.statusAfter t.status ≠ t.status) : ¬KeepsSettled call journal (retainJournalTransactions mutated) := by
  intro hkeeps
  rcases mutate_cases hmutate with ⟨_, _, _, _, rfl, rfl⟩ | ⟨before, old, new, after, hreplaces⟩
  · cases hid
  · have hcount := h.count
    rw [hreplaces.split] at hcount
    rw [retain_of_le (by rw [hreplaces.split']; simpa using hcount)] at hkeeps
    have hsame : old.id = t.id := Option.some.inj (hreplaces.transactionId.symm.trans hid)
    obtain rfl := eq_of_id h.ids (hreplaces.split ▸ List.mem_append_right _ List.mem_cons_self) ht hsame
    have hnotStarted : call.startedId ≠ some old.id := by
      intro hstarted
      cases call with
      | start => cases hid
      | passStart | passBlocked | passSuccess | passFailure | commit | fail => cases hstarted
    have hstatus := hkeeps old ht hsettled hnotStarted new
      (hreplaces.split' ▸ List.mem_append_right _ List.mem_cons_self) hreplaces.id
    exact hchanged (hreplaces.status.symm.trans hstatus)

/-- A call that is not permitted is published, and changes the status of a settled transaction. -/
theorem exists_of_not_permitted (h : journal.Valid) (hnot : ¬call.Permitted journal) :
    ∃ mutated, call.mutate journal = .ok mutated ∧ (retainJournalTransactions mutated).Valid ∧
      ¬KeepsSettled call journal (retainJournalTransactions mutated) := by
  cases call with
  | start => exact absurd trivial hnot
  | passStart => exact absurd trivial hnot
  | passBlocked => exact absurd trivial hnot
  | passSuccess => exact absurd trivial hnot
  | passFailure => exact absurd trivial hnot
  | commit transactionId now =>
      simp only [JournalCall.Permitted, not_forall] at hnot
      obtain ⟨t, ht, rfl, hfailed, hafter⟩ := hnot
      obtain ⟨updated, hupdate⟩ := updateTransaction_succeeds
        (fun t => { t with status := .succeeded, completedAt := some now.val }) ht rfl
      have hmutate : (JournalCall.commit t.id now).mutate journal = .ok (releaseActive t.id
          { updated with lastCommittedTransactionId := some t.id }) := by
        change (updateTransaction journal t.id _ >>= _) = _
        rw [hupdate]
        rfl
      have hcall : (JournalCall.commit t.id now).WellFormed journal := trivial
      refine ⟨_, hmutate, (retain_mutate_valid_iff h hcall hmutate).mpr hafter, ?_⟩
      exact not_keepsSettled h hmutate ht rfl (by rw [hfailed]; nofun) (by rw [hfailed]; nofun)
  | fail transactionId errorCode message now =>
      simp only [JournalCall.Permitted, not_forall, not_or, not_not] at hnot
      obtain ⟨t, ht, rfl, hsucceeded, hlast, hbounded⟩ := hnot
      obtain ⟨updated, hupdate⟩ := updateTransaction_succeeds (fun t => { t with
        status := .failed, completedAt := some now.val, errorCode := some errorCode, message := some message }) ht rfl
      have hmutate : (JournalCall.fail t.id errorCode message now).mutate journal =
          .ok (releaseActive t.id updated) := by
        change (updateTransaction journal t.id _ >>= _) = _
        rw [hupdate]
        rfl
      have hcall : (JournalCall.fail t.id errorCode message now).WellFormed journal := hbounded
      refine ⟨_, hmutate, (retain_mutate_valid_iff h hcall hmutate).mpr hlast, ?_⟩
      exact not_keepsSettled h hmutate ht rfl (by rw [hsucceeded]; nofun) (by rw [hsucceeded]; nofun)

/-! ### Runs -/

theorem mutate_retirements (hmutate : call.mutate journal = .ok mutated) :
    mutated.retirements = journal.retirements := by
  rcases mutate_cases hmutate with ⟨source, requestedStages, uuid, now, rfl, rfl⟩ | ⟨before, old, new, after, hreplaces⟩
  · have hinterrupt : (interruptActiveTransaction journal now).retirements = journal.retirements := by
      unfold interruptActiveTransaction
      repeat' split
      all_goals rfl
    unfold startPipelineTransaction
    by_cases hsource : source = .reference
    · simpa only [if_pos hsource, rebindLastCommittedTransaction] using hinterrupt
    · simpa only [if_neg hsource] using hinterrupt
  · exact hreplaces.retirements

theorem retain_retirements : (retainJournalTransactions journal).retirements = journal.retirements := by
  unfold retainJournalTransactions
  dsimp only
  repeat' split
  all_goals rfl

/-- The ids of a changed journal are old ones, or that of the transaction the call has started. -/
theorem mutate_ids (h : journal.Consistent) (hmutate : call.mutate journal = .ok mutated)
    {t' : PipelineTransactionRecord} (ht' : t' ∈ mutated.transactions) :
    (∃ t ∈ journal.transactions, t.id = t'.id) ∨ call.startedId = some t'.id := by
  rcases mutate_cases hmutate with ⟨source, requestedStages, uuid, now, rfl, rfl⟩ | ⟨before, old, new, after, hreplaces⟩
  · rcases List.mem_append.mp ht' with hmem | hmem
    · have hinterrupted : t' ∈ (interruptActiveTransaction journal now).transactions := by
        by_cases hsource : source = .reference
        · simp only [if_pos hsource, rebindLastCommittedTransaction] at hmem
          exact List.mem_of_mem_filter hmem
        · simpa only [if_neg hsource] using hmem
      have hid : t'.id ∈ journal.transactions.map PipelineTransactionRecord.id := by
        rw [← interrupt_ids now h]
        exact List.mem_map_of_mem hinterrupted
      exact .inl (List.mem_map.mp hid)
    · obtain rfl := List.mem_singleton.mp hmem
      exact .inr rfl
  · rw [hreplaces.split]
    rw [hreplaces.split'] at ht'
    rcases List.mem_append.mp ht' with hmem | hmem
    · exact .inl ⟨t', List.mem_append_left _ hmem, rfl⟩
    · rcases List.mem_cons.mp hmem with rfl | hmem
      · exact .inl ⟨old, List.mem_append_right _ List.mem_cons_self, hreplaces.id.symm⟩
      · exact .inl ⟨t', List.mem_append_right _ (List.mem_cons_of_mem _ hmem), rfl⟩

/-- A published journal is read back. -/
theorem readJournal_published (hvalid : journal.Valid) (hevidence : validateRetirementEvidence files journal = .ok ()) :
    readJournal files (some journal.toValue) = .ok journal := by
  have hversion : Json.get? "formatVersion" (present journal.fields) = some (.str PIPELINE_JOURNAL_FORMAT_VERSION) :=
    journal.shows.values _ List.mem_cons_self
  have hlegacy : isLegacy journal.toValue = false := by
    simp only [isLegacy, PipelineJournal.toValue, hversion]
    decide
  simp only [readJournal, hlegacy, validateJournal_toValue.mpr ⟨rfl, hvalid⟩, hevidence, require, ok_bind]
  rfl

/-- A step by a call that the journal it reads permits. -/
def PermittedStep (files : JournalFiles) (stored : Option Value) (call : JournalCall) (stored' : Option Value) : Prop :=
  JournalStep files stored call stored' ∧ ∀ journal, readJournal files stored = .ok journal → call.Permitted journal

/-- A permitted step leads from a journal to a journal, and keeps every settled transaction. -/
theorem permittedStep {stored stored' : Option Value} (h : readJournal files stored = .ok journal)
    (hstep : PermittedStep files stored call stored') : ∃ journal', readJournal files stored' = .ok journal' ∧
      KeepsSettled call journal journal' ∧ ∀ t' ∈ journal'.transactions,
        (∃ t ∈ journal.transactions, t.id = t'.id) ∨ call.startedId = some t'.id := by
  obtain ⟨hstored, hevidence⟩ := readJournal_eq_ok h
  have hjournal := storedJournal_valid hstored
  obtain ⟨hstep, hpermitted⟩ := hstep
  cases hstep with
  | stopped =>
      refine ⟨journal, h, fun t ht _ _ t' ht' hsame => ?_, fun t' ht' => .inl ⟨t', ht', rfl⟩⟩
      rw [eq_of_id hjournal.ids ht' ht hsame]
  | published hvalue =>
      obtain ⟨read, mutated, hread, hmutate, hvalid, rfl⟩ := mutateJournal_eq_ok.mp hvalue
      obtain rfl := Except.ok.inj (h.symm.trans hread)
      have hkeeps := mutate_keepsSettled hjournal (hpermitted _ h) hmutate hvalid
      refine ⟨_, readJournal_published hvalid ?_, fun t ht hsettled hid t' ht' =>
        hkeeps t ht hsettled hid t' (retain_subset ht'), fun t' ht' => mutate_ids hjournal.toConsistent hmutate
        (retain_subset ht')⟩
      rwa [validateRetirementEvidence, retain_retirements, mutate_retirements hmutate]

/-- A settled transaction keeps its status, under each call exactly when it is permitted, and through every sequence of
permitted calls of which none starts another transaction under its id. -/
structure SettledLaw (files : JournalFiles) (stored : Option Value) (journal : PipelineJournal) : Prop where
  step : ∀ call, (∀ stored' journal', JournalStep files stored call stored' →
    storedJournal files.journalPath stored' = .ok journal' → KeepsSettled call journal journal') ↔ call.Permitted journal
  run : ∀ calls stored', Run (PermittedStep files) (· = stored) calls stored' → ∀ t ∈ journal.transactions,
    t.status ≠ .running → (∀ call ∈ calls, call.startedId ≠ some t.id) →
      ∃ journal', readJournal files stored' = .ok journal' ∧
        ∀ t' ∈ journal'.transactions, t'.id = t.id → t'.status = t.status

theorem terminalStatus_settled {stored : Option Value} (h : readJournal files stored = .ok journal) :
    SettledLaw files stored journal := by
  have hstored := (readJournal_eq_ok h).1
  have hjournal := storedJournal_valid hstored
  constructor
  case step =>
    intro call
    constructor
    · intro hkeeps
      by_contra hnot
      obtain ⟨mutated, hmutate, hvalid, hchanged⟩ := exists_of_not_permitted hjournal hnot
      have hpublished : JournalStep files stored call (some (retainJournalTransactions mutated).toValue) :=
        .published (mutateJournal_eq_ok.mpr ⟨journal, mutated, h, hmutate, hvalid, rfl⟩)
      exact hchanged (hkeeps _ _ hpublished (validateJournal_toValue.mpr ⟨rfl, hvalid⟩))
    · intro hpermitted stored' journal' hstep hstored'
      have hstep' : PermittedStep files stored call stored' := by
        refine ⟨hstep, fun read hread => ?_⟩
        obtain rfl := Except.ok.inj (h.symm.trans hread)
        exact hpermitted
      obtain ⟨read, hread, hkeeps, -⟩ := permittedStep h hstep'
      obtain rfl := Except.ok.inj (hstored'.symm.trans (readJournal_eq_ok hread).1)
      exact hkeeps
  case run =>
    intro calls stored' hrun t ht hsettled
    refine hrun.invariant (P := fun calls stored' => (∀ call ∈ calls, call.startedId ≠ some t.id) →
      ∃ journal', readJournal files stored' = .ok journal' ∧
        ∀ t' ∈ journal'.transactions, t'.id = t.id → t'.status = t.status) ?_ ?_
    · rintro s rfl -
      exact ⟨journal, h, fun t' ht' hsame => by rw [eq_of_id hjournal.ids ht' ht hsame]⟩
    · intro calls s call s' ih hstep hnone
      obtain ⟨read, hread, hstatus⟩ := ih fun c hc => hnone c (List.mem_append_left _ hc)
      obtain ⟨journal', hread', hkeeps, hids⟩ := permittedStep hread hstep
      refine ⟨journal', hread', fun t' ht' hsame => ?_⟩
      have hother := hnone call (List.mem_append_right _ List.mem_cons_self)
      -- the transaction was there before the call, since the call does not start one of its id
      rcases hids t' ht' with ⟨t₀, ht₀, hid₀⟩ | hstarted
      · have h₀ := hstatus t₀ ht₀ (hid₀.trans hsame)
        have hsettled₀ : t₀.status ≠ .running := by rwa [h₀]
        rw [hkeeps t₀ ht₀ hsettled₀ (by rwa [hid₀, hsame]) t' ht' hid₀.symm, h₀]
      · exact absurd (hsame ▸ hstarted) hother

/-! ### A commit of an interrupted transaction -/

def interruptedMessage : Text := "Previous pipeline transaction did not complete before a new transaction started"

def interruptedJournal : PipelineJournal :=
  ⟨some "tx:2", none, [sampleTransaction "tx:1" .failed (some sampleTime.val) (some "PIPELINE-INTERRUPTED-001")
    (some interruptedMessage), sampleTransaction "tx:2" .running none none none], none⟩

def revivedJournal : PipelineJournal :=
  ⟨some "tx:2", some "tx:1", [sampleTransaction "tx:1" .succeeded (some sampleTime.val)
    (some "PIPELINE-INTERRUPTED-001") (some interruptedMessage), sampleTransaction "tx:2" .running none none none], none⟩

theorem terminalStatus_settled_interrupted :
    SettledLaw sampleFiles (some interruptedJournal.toValue) interruptedJournal :=
  terminalStatus_settled (by decide)

theorem interrupted_commit_revives :
    mutateJournal sampleFiles (sampleStart "1") none = .ok startedJournal.toValue ∧
    mutateJournal sampleFiles (sampleStart "2") (some startedJournal.toValue) = .ok interruptedJournal.toValue ∧
    mutateJournal sampleFiles (.commit "tx:1" sampleTime) (some interruptedJournal.toValue) =
      .ok revivedJournal.toValue ∧
    ¬KeepsSettled (.commit "tx:1" sampleTime) interruptedJournal revivedJournal := by
  refine ⟨by decide, by decide, by decide, fun hkeeps => ?_⟩
  have hstatus := hkeeps _ List.mem_cons_self nofun nofun _ List.mem_cons_self rfl
  cases hstatus

end SecPlatform.Compilation
