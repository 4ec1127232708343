import SecPlatform.Compilation.Lemmas.Validation

/-!
# What the operations keep

Every operation either starts a transaction or replaces one. A journal stays consistent under each, except where
the replaced transaction leaves the last committed one behind.
-/

namespace SecPlatform.Compilation

open Contracts

/-! ## Replacing one element -/

theorem updateFirst_split {α : Type} {p : α → Bool} {f : α → α} {xs : List α} {a : α} (h : xs.find? p = some a) :
    ∃ before after, xs = before ++ a :: after ∧ (∀ x ∈ before, p x = false) ∧
      updateFirst p f xs = before ++ f a :: after := by
  induction xs with
  | nil => cases h
  | cons x xs ih =>
      rw [List.find?_cons] at h
      rw [updateFirst]
      split at h
      next hx =>
        obtain rfl := Option.some.inj h
        exact ⟨[], xs, rfl, nofun, if_pos hx⟩
      next hx =>
        obtain ⟨before, after, rfl, hbefore, hupdate⟩ := ih h
        refine ⟨x :: before, after, rfl, ?_, ?_⟩
        · rw [List.forall_mem_cons]
          exact ⟨hx, hbefore⟩
        · rw [hx, if_neg Bool.false_ne_true, hupdate]
          rfl

theorem mem_updateFirst {α : Type} {p : α → Bool} {f : α → α} {xs : List α} {y : α} (h : y ∈ updateFirst p f xs) :
    y ∈ xs ∨ ∃ x ∈ xs, p x ∧ y = f x := by
  induction xs with
  | nil => exact .inl h
  | cons x xs ih =>
      rw [updateFirst] at h
      split at h
      next hx =>
        rcases List.mem_cons.mp h with rfl | h
        · exact .inr ⟨x, List.mem_cons_self, hx, rfl⟩
        · exact .inl (List.mem_cons_of_mem _ h)
      next =>
        rcases List.mem_cons.mp h with rfl | h
        · exact .inl List.mem_cons_self
        · rcases ih h with h | ⟨x, hx, hp, rfl⟩
          · exact .inl (List.mem_cons_of_mem _ h)
          · exact .inr ⟨x, List.mem_cons_of_mem _ hx, hp, rfl⟩

theorem length_updateFirst {α : Type} {p : α → Bool} {f : α → α} {xs : List α} :
    (updateFirst p f xs).length = xs.length := by
  induction xs with
  | nil => rfl
  | cons x xs ih =>
      rw [updateFirst]
      split
      · rfl
      · rw [List.length_cons, List.length_cons, ih]

/-- What an update of a transaction does: it replaces the transaction of its id. -/
theorem updateTransaction_eq_ok {journal journal' : PipelineJournal} {transactionId : Text}
    {change : PipelineTransactionRecord → Except Text PipelineTransactionRecord}
    (h : updateTransaction journal transactionId change = .ok journal') :
    ∃ before old new after, journal.transactions = before ++ old :: after ∧ old.id = transactionId ∧
      change old = .ok new ∧ journal' = { journal with transactions := before ++ new :: after } := by
  unfold updateTransaction at h
  simp only [bind_eq_ok, orThrow_eq_ok, pure_eq_ok, Except.ok.injEq] at h
  obtain ⟨old, hfound, new, hchange, rfl⟩ := h
  obtain ⟨before, after, hsplit, -, hupdate⟩ := updateFirst_split (f := fun _ => new) hfound
  exact ⟨before, old, new, after, hsplit, by simpa using List.find?_some hfound, hchange, by rw [hupdate]⟩

/-! ## The cross references -/

theorem runningIds_append {ts ts' : List PipelineTransactionRecord} :
    runningIds (ts ++ ts') = runningIds ts ++ runningIds ts' := by
  simp [runningIds]

theorem runningIds_cons {t : PipelineTransactionRecord} {ts : List PipelineTransactionRecord} :
    runningIds (t :: ts) = (if t.status = .running then [t.id] else []) ++ runningIds ts := by
  by_cases h : t.status = .running <;> simp [runningIds, h]

theorem latestSucceeded_append {ts ts' : List PipelineTransactionRecord} :
    latestSucceeded (ts ++ ts') = (latestSucceeded ts').or (latestSucceeded ts) := by
  simp [latestSucceeded, List.find?_append]

theorem latestSucceeded_cons {t : PipelineTransactionRecord} {ts : List PipelineTransactionRecord} :
    latestSucceeded (t :: ts) = (latestSucceeded ts).or (if t.status = .succeeded then some t else none) := by
  rw [← List.singleton_append, latestSucceeded_append]
  by_cases h : t.status = .succeeded <;> simp [latestSucceeded, h]

theorem latestSucceeded_eq_none {ts : List PipelineTransactionRecord} :
    latestSucceeded ts = none ↔ ∀ t ∈ ts, t.status ≠ .succeeded := by
  simp [latestSucceeded]

section Split

variable {before after : List PipelineTransactionRecord} {old new : PipelineTransactionRecord}

/-- Where the ids are unique, a transaction is known by its id. -/
theorem eq_of_id {ts : List PipelineTransactionRecord} (h : (ts.map PipelineTransactionRecord.id).Nodup)
    {t t' : PipelineTransactionRecord} (ht : t ∈ ts) (ht' : t' ∈ ts) (hid : t.id = t'.id) : t = t' :=
  List.inj_on_of_nodup_map h ht ht' hid

theorem ids_replace (h : ((before ++ old :: after).map PipelineTransactionRecord.id).Nodup) (hid : new.id = old.id) :
    ((before ++ new :: after).map PipelineTransactionRecord.id).Nodup := by
  rwa [List.map_append, List.map_cons, hid, ← List.map_cons, ← List.map_append]

theorem id_ne_of_mem (h : ((before ++ old :: after).map PipelineTransactionRecord.id).Nodup)
    {t : PipelineTransactionRecord} (ht : t ∈ before ∨ t ∈ after) : t.id ≠ old.id := by
  rw [List.map_append, List.map_cons, List.nodup_middle, List.nodup_cons, ← List.map_append] at h
  intro heq
  exact h.1 (heq ▸ List.mem_map_of_mem (List.mem_append.mpr ht))

end Split

/-- The active id is that of the running transaction. -/
theorem PipelineJournal.Consistent.active_iff {journal : PipelineJournal} (h : journal.Consistent) {id : Text} :
    journal.activeTransactionId = some id ↔ ∃ t ∈ journal.transactions, t.status = .running ∧ t.id = id := by
  rw [← mem_runningIds, h.active]
  simp

/-! ## Transactions that are replaced -/

section Replace

variable {journal : PipelineJournal} {before after : List PipelineTransactionRecord}
  {old new : PipelineTransactionRecord}

/-- A transaction of the same status. -/
theorem PipelineJournal.Consistent.replace_same (h : journal.Consistent)
    (hsplit : journal.transactions = before ++ old :: after) (hid : new.id = old.id) (hstatus : new.status = old.status)
    (hvalid : new.Valid) : { journal with transactions := before ++ new :: after }.Consistent where
  transactions := fun t ht => by
    rcases List.mem_append.mp ht with ht | ht
    · exact h.transactions t (hsplit ▸ List.mem_append_left _ ht)
    · rcases List.mem_cons.mp ht with rfl | ht
      · exact hvalid
      · exact h.transactions t (hsplit ▸ List.mem_append_right _ (List.mem_cons_of_mem _ ht))
  ids := ids_replace (hsplit ▸ h.ids) hid
  active := by
    have hactive := h.active
    rw [hsplit, runningIds_append, runningIds_cons, ← hstatus, ← hid] at hactive
    rw [runningIds_append, runningIds_cons, hactive]
  lastCommitted := by
    rw [h.lastCommitted, hsplit, latestSucceeded_append, latestSucceeded_cons, latestSucceeded_append,
      latestSucceeded_cons, hstatus]
    cases latestSucceeded after with
    | some t => rfl
    | none =>
        split
        · exact congrArg some hid.symm
        · rfl
  retirements := h.retirements

/-- Settling a transaction releases the active id when it is its own. -/
theorem runningIds_settled (h : journal.Consistent) (hsplit : journal.transactions = before ++ old :: after)
    (hstatus : new.status ≠ .running) : runningIds (before ++ new :: after) =
      (if journal.activeTransactionId = some old.id then none else journal.activeTransactionId).toList := by
  have hactive := h.active
  rw [hsplit, runningIds_append, runningIds_cons] at hactive
  rw [runningIds_append, runningIds_cons, if_neg hstatus, List.nil_append]
  by_cases hold : old.status = .running
  · have hself : journal.activeTransactionId = some old.id :=
      h.active_iff.mpr ⟨old, hsplit ▸ List.mem_append_right _ List.mem_cons_self, hold, rfl⟩
    rw [if_pos hold, hself] at hactive
    have hlength := congrArg List.length hactive
    simp only [List.length_append, Option.toList_some, List.length_singleton] at hlength
    have hbefore : runningIds before = [] := List.length_eq_zero_iff.mp (by omega)
    have hafter : runningIds after = [] := List.length_eq_zero_iff.mp (by omega)
    rw [if_pos hself, hbefore, hafter]
    rfl
  · rw [if_neg hold, List.nil_append] at hactive
    have hother : journal.activeTransactionId ≠ some old.id := by
      intro hself
      obtain ⟨t, ht, hrunning, hid⟩ := h.active_iff.mp hself
      obtain rfl := eq_of_id h.ids ht (hsplit ▸ List.mem_append_right _ List.mem_cons_self) hid
      exact hold hrunning
    rw [if_neg hother, hactive]

theorem transactions_replace (h : journal.Consistent) (hsplit : journal.transactions = before ++ old :: after)
    (hvalid : new.Valid) : ∀ t ∈ before ++ new :: after, t.Valid := by
  intro t ht
  rcases List.mem_append.mp ht with ht | ht
  · exact h.transactions t (hsplit ▸ List.mem_append_left _ ht)
  · rcases List.mem_cons.mp ht with rfl | ht
    · exact hvalid
    · exact h.transactions t (hsplit ▸ List.mem_append_right _ (List.mem_cons_of_mem _ ht))

theorem releaseActive_activeTransactionId {id : Text} : (releaseActive id journal).activeTransactionId =
    if journal.activeTransactionId = some id then none else journal.activeTransactionId := by
  unfold releaseActive
  split <;> rfl

/-- A settled transaction leaves a consistent journal when the last committed one is right. -/
theorem settled_iff (new : PipelineTransactionRecord) {last : Option Text} (h : journal.Consistent)
    (hsplit : journal.transactions = before ++ old :: after) (hid : new.id = old.id) (hstatus : new.status ≠ .running)
    (hvalid : new.Valid) :
    (releaseActive old.id { journal with
      transactions := before ++ new :: after, lastCommittedTransactionId := last }).Consistent ↔
      last = (latestSucceeded (before ++ new :: after)).map PipelineTransactionRecord.id := by
  have hfields : releaseActive old.id { journal with
      transactions := before ++ new :: after, lastCommittedTransactionId := last } = { journal with
      activeTransactionId := if journal.activeTransactionId = some old.id then none else journal.activeTransactionId
      transactions := before ++ new :: after, lastCommittedTransactionId := last } := by
    unfold releaseActive
    split <;> rfl
  rw [hfields]
  exact ⟨fun hconsistent => hconsistent.lastCommitted, fun hlast =>
    ⟨transactions_replace h hsplit hvalid, ids_replace (hsplit ▸ h.ids) hid, runningIds_settled h hsplit hstatus,
      hlast, h.retirements⟩⟩

end Replace

/-- A transaction that stands after the one of an id has succeeded. -/
def SucceededAfter (id : Text) (transactions : List PipelineTransactionRecord) : Prop :=
  ∃ before transaction after, transactions = before ++ transaction :: after ∧ transaction.id = id ∧
    ∃ later ∈ after, later.status = .succeeded

theorem succeededAfter_iff {before after : List PipelineTransactionRecord} {old : PipelineTransactionRecord}
    (h : ((before ++ old :: after).map PipelineTransactionRecord.id).Nodup) :
    SucceededAfter old.id (before ++ old :: after) ↔ latestSucceeded after ≠ none := by
  rw [Ne, latestSucceeded_eq_none]
  push Not
  constructor
  · rintro ⟨before', t, after', hsplit, hid, later, hlater, hstatus⟩
    have hmem : later ∈ before ++ old :: after := hsplit ▸ List.mem_append_right _ (List.mem_cons_of_mem _ hlater)
    obtain ⟨-, rfl, rfl⟩ : before' = before ∧ t = old ∧ after' = after := by
      have ht : t = old := eq_of_id h (hsplit ▸ by simp) (by simp) hid
      subst ht
      have hnodup := List.Nodup.of_map _ h
      obtain ⟨a, rfl, ha⟩ | ⟨a, rfl, ha⟩ := List.append_eq_append_iff.mp hsplit
      · cases a with
        | nil => simpa using ha.symm
        | cons x a =>
            obtain ⟨rfl, rfl⟩ := List.cons.inj ha
            simp [List.nodup_middle] at hnodup
      · cases a with
        | nil => simpa using ha
        | cons x a =>
            obtain ⟨rfl, rfl⟩ := List.cons.inj ha
            simp [List.nodup_append] at hnodup
    exact ⟨later, hlater, hstatus⟩
  · rintro ⟨later, hlater, hstatus⟩
    exact ⟨before, old, after, rfl, rfl, later, hlater, hstatus⟩

/-! ## Commit and fail -/

section Settle

variable {journal journal' : PipelineJournal} {transactionId : Text} {now : Timestamp}

theorem PipelineTransactionRecord.Valid.succeed {t : PipelineTransactionRecord} (h : t.Valid) :
    { t with status := .succeeded, completedAt := some now.val }.Valid where
  lifetime := ⟨h.lifetime.startedAt, fun _ ht => Option.mem_some.mp ht ▸ now.2, h.lifetime.errorCode, h.lifetime.message,
    nofun, nofun⟩
  id := h.id
  requestedStages := h.requestedStages
  passCount := h.passCount
  passRecords := h.passRecords

theorem PipelineTransactionRecord.Valid.fail {t : PipelineTransactionRecord} {errorCode message : Text} (h : t.Valid)
    (hcode : isBounded 4096 errorCode) (hmessage : isBounded 16384 message) :
    { t with
      status := .failed, completedAt := some now.val, errorCode := some errorCode, message := some message }.Valid where
  lifetime := ⟨h.lifetime.startedAt, fun _ ht => Option.mem_some.mp ht ▸ now.2, fun _ ht => Option.mem_some.mp ht ▸ hcode,
    fun _ ht => Option.mem_some.mp ht ▸ hmessage, nofun, nofun⟩
  id := h.id
  requestedStages := h.requestedStages
  passCount := h.passCount
  passRecords := h.passRecords

/-- A commit leaves a consistent journal exactly when no later transaction has succeeded. -/
theorem commit_consistent_iff (h : journal.Consistent)
    (hcommit : commitPipelineTransaction transactionId now journal = .ok journal') :
    journal'.Consistent ↔ ¬SucceededAfter transactionId journal.transactions := by
  obtain ⟨updated, hupdate, hrelease⟩ := bind_eq_ok.mp hcommit
  obtain ⟨before, old, new, after, hsplit, rfl, hchange, rfl⟩ := updateTransaction_eq_ok hupdate
  obtain rfl := Except.ok.inj hchange
  obtain rfl := Except.ok.inj hrelease
  have hids : ((before ++ old :: after).map PipelineTransactionRecord.id).Nodup := hsplit ▸ h.ids
  have hold := h.transactions old (hsplit ▸ List.mem_append_right _ List.mem_cons_self)
  rw [hsplit, succeededAfter_iff hids, not_not]
  refine (settled_iff { old with status := .succeeded, completedAt := some now.val } h hsplit rfl nofun
    hold.succeed).trans ?_
  rw [latestSucceeded_append, latestSucceeded_cons, if_pos rfl]
  cases hlatest : latestSucceeded after with
  | none => simp
  | some later =>
      have hne := id_ne_of_mem hids (.inr (latestSucceeded_mem hlatest).1)
      simpa [eq_comm] using hne

/-- A fail leaves a consistent journal exactly when the transaction is not the last committed one. -/
theorem fail_consistent_iff {errorCode message : Text} (h : journal.Consistent) (hcode : isBounded 4096 errorCode)
    (hmessage : isBounded 16384 message)
    (hfail : failPipelineTransaction transactionId errorCode message now journal = .ok journal') :
    journal'.Consistent ↔ journal.lastCommittedTransactionId ≠ some transactionId := by
  obtain ⟨updated, hupdate, hrelease⟩ := bind_eq_ok.mp hfail
  obtain ⟨before, old, new, after, hsplit, rfl, hchange, rfl⟩ := updateTransaction_eq_ok hupdate
  obtain rfl := Except.ok.inj hchange
  obtain rfl := Except.ok.inj hrelease
  have hids : ((before ++ old :: after).map PipelineTransactionRecord.id).Nodup := hsplit ▸ h.ids
  have hold := h.transactions old (hsplit ▸ List.mem_append_right _ List.mem_cons_self)
  refine (settled_iff { old with
    status := .failed, completedAt := some now.val, errorCode := some errorCode, message := some message } h hsplit rfl nofun
    (hold.fail hcode hmessage)).trans ?_
  rw [h.lastCommitted, hsplit, latestSucceeded_append, latestSucceeded_cons, latestSucceeded_append, latestSucceeded_cons,
    if_neg (show ¬PipelineTransactionStatus.failed = .succeeded by decide)]
  cases hafter : latestSucceeded after with
  | some later =>
      have hne := id_ne_of_mem hids (.inr (latestSucceeded_mem hafter).1)
      simpa using hne
  | none =>
      by_cases hsucceeded : old.status = .succeeded
      · cases hbefore : latestSucceeded before with
        | none => simp [hsucceeded]
        | some earlier =>
            have hne := id_ne_of_mem hids (.inl (latestSucceeded_mem hbefore).1)
            simpa [hsucceeded, eq_comm] using hne
      · cases hbefore : latestSucceeded before with
        | none => simp [hsucceeded]
        | some earlier =>
            have hne := id_ne_of_mem hids (.inl (latestSucceeded_mem hbefore).1)
            simpa [hsucceeded] using hne

end Settle

/-! ## Passes -/

section Passes

variable {journal journal' : PipelineJournal} {transactionId : Text} {passId : PassId} {now : Timestamp}

/-- A change that keeps the id, the status and the validity of a transaction. -/
theorem updateTransaction_consistent {change : PipelineTransactionRecord → Except Text PipelineTransactionRecord}
    (h : journal.Consistent) (hupdate : updateTransaction journal transactionId change = .ok journal')
    (hchange : ∀ old ∈ journal.transactions, old.id = transactionId → ∀ new, change old = .ok new →
      new.id = old.id ∧ new.status = old.status ∧ (old.Valid → new.Valid)) : journal'.Consistent := by
  obtain ⟨before, old, new, after, hsplit, hid, hnew, rfl⟩ := updateTransaction_eq_ok hupdate
  have hold : old ∈ journal.transactions := hsplit ▸ List.mem_append_right _ List.mem_cons_self
  obtain ⟨hnewId, hstatus, hvalid⟩ := hchange old hold hid new hnew
  exact h.replace_same hsplit hnewId hstatus (hvalid (h.transactions old hold))

/-- A further pass is valid where there is room for it. -/
theorem PipelineTransactionRecord.Valid.addPass {t : PipelineTransactionRecord} {pass : PipelinePassRecord}
    (h : t.Valid) (hroom : t.passRecords.length < 128) (hpass : pass.Valid) :
    { t with passRecords := t.passRecords ++ [pass] }.Valid where
  lifetime := h.lifetime
  id := h.id
  requestedStages := h.requestedStages
  passCount := by
    rw [List.length_append, List.length_singleton]
    exact hroom
  passRecords := by
    intro p hp
    rcases List.mem_append.mp hp with hp | hp
    · exact h.passRecords p hp
    · rw [List.mem_singleton.mp hp]
      exact hpass

/-- What an update of a running pass does. -/
theorem updateRunningPass_eq_ok {t t' : PipelineTransactionRecord} {change : PipelinePassRecord → PipelinePassRecord}
    (h : updateRunningPass t passId change = .ok t')
    (hchange : ∀ pass, pass.status = .running → pass.Valid → (change pass).Valid) :
    t'.id = t.id ∧ t'.status = t.status ∧ (t.Valid → t'.Valid) := by
  obtain ⟨-, h⟩ := check_bind_eq_ok.mp h
  obtain rfl := Except.ok.inj h
  refine ⟨rfl, rfl, fun hvalid => ⟨hvalid.lifetime, hvalid.id, hvalid.requestedStages, ?_, ?_⟩⟩
  · rw [List.length_reverse, length_updateFirst, List.length_reverse]
    exact hvalid.passCount
  · intro pass hpass
    rcases mem_updateFirst (List.mem_reverse.mp hpass) with hpass | ⟨old, hold, hrunning, rfl⟩
    · exact hvalid.passRecords pass (List.mem_reverse.mp hpass)
    · rw [Bool.and_eq_true, decide_eq_true_eq, decide_eq_true_eq] at hrunning
      exact hchange old hrunning.2 (hvalid.passRecords old (List.mem_reverse.mp hold))

theorem passStart_consistent (h : journal.Consistent)
    (hroom : ∀ t ∈ journal.transactions, t.id = transactionId → t.passRecords.length < 128)
    (hstart : recordPipelinePassStart transactionId passId now journal = .ok journal') : journal'.Consistent := by
  refine updateTransaction_consistent h hstart fun old hold hid new hnew => ?_
  obtain rfl := Except.ok.inj hnew
  exact ⟨rfl, rfl, fun hvalid => hvalid.addPass (hroom old hold hid) ⟨now.2, nofun, nofun, nofun, fun _ => ⟨rfl, rfl, rfl⟩,
    fun hdone => absurd rfl hdone⟩⟩

theorem passBlocked_consistent {errorCode message : Text} (h : journal.Consistent)
    (hroom : ∀ t ∈ journal.transactions, t.id = transactionId → t.passRecords.length < 128)
    (hcode : isBounded 4096 errorCode) (hmessage : isBounded 16384 message)
    (hblocked : recordPipelinePassBlocked transactionId passId errorCode message now journal = .ok journal') :
    journal'.Consistent := by
  refine updateTransaction_consistent h hblocked fun old hold hid new hnew => ?_
  obtain rfl := Except.ok.inj hnew
  exact ⟨rfl, rfl, fun hvalid => hvalid.addPass (hroom old hold hid) ⟨now.2, fun _ ht => Option.mem_some.mp ht ▸ now.2,
    fun _ ht => Option.mem_some.mp ht ▸ hcode, fun _ ht => Option.mem_some.mp ht ▸ hmessage, nofun, nofun⟩⟩

theorem passSuccess_consistent (h : journal.Consistent)
    (hsuccess : recordPipelinePassSuccess transactionId passId now journal = .ok journal') : journal'.Consistent := by
  refine updateTransaction_consistent h hsuccess fun old _ _ new hnew => ?_
  refine updateRunningPass_eq_ok hnew fun pass hrunning hvalid => ?_
  exact ⟨hvalid.startedAt, fun _ ht => Option.mem_some.mp ht ▸ now.2, hvalid.errorCode, hvalid.message, nofun, nofun⟩

theorem passFailure_consistent {errorCode message : Text} (h : journal.Consistent)
    (hcode : isBounded 4096 errorCode) (hmessage : isBounded 16384 message)
    (hfailure : recordPipelinePassFailure transactionId passId errorCode message now journal = .ok journal') :
    journal'.Consistent := by
  refine updateTransaction_consistent h hfailure fun old _ _ new hnew => ?_
  refine updateRunningPass_eq_ok hnew fun pass hrunning hvalid => ?_
  exact ⟨hvalid.startedAt, fun _ ht => Option.mem_some.mp ht ▸ now.2, fun _ ht => Option.mem_some.mp ht ▸ hcode,
    fun _ ht => Option.mem_some.mp ht ▸ hmessage, nofun, nofun⟩

end Passes

/-! ## Start -/

section Start

variable {journal : PipelineJournal} (now : Timestamp)

theorem isBounded_interrupted : isBounded 4096 "PIPELINE-INTERRUPTED-001" ∧
    isBounded 16384 "Previous pipeline transaction did not complete before a new transaction started" ∧
    isBounded 16384 "Pass execution was interrupted before completion" := by decide

theorem PipelineTransactionRecord.Valid.interrupted {t : PipelineTransactionRecord} (h : t.Valid) :
    (interruptedTransaction now t).Valid where
  lifetime := ⟨h.lifetime.startedAt, fun _ ht => Option.mem_some.mp ht ▸ now.2,
    fun _ ht => Option.mem_some.mp ht ▸ isBounded_interrupted.1,
    fun _ ht => Option.mem_some.mp ht ▸ isBounded_interrupted.2.1, nofun, nofun⟩
  id := h.id
  requestedStages := h.requestedStages
  passCount := by
    simp only [interruptedTransaction, List.length_map]
    exact h.passCount
  passRecords := by
    intro pass hpass
    obtain ⟨old, hold, rfl⟩ := List.mem_map.mp hpass
    have hvalid := h.passRecords old hold
    unfold interruptedPass
    split
    · exact ⟨hvalid.startedAt, fun _ ht => Option.mem_some.mp ht ▸ now.2,
        fun _ ht => Option.mem_some.mp ht ▸ isBounded_interrupted.1,
        fun _ ht => Option.mem_some.mp ht ▸ isBounded_interrupted.2.2, nofun, nofun⟩
    · exact hvalid

/-- Interrupting settles the running transaction and nothing else. -/
theorem interrupt_eq (h : journal.Consistent) :
    (journal.activeTransactionId = none ∧ interruptActiveTransaction journal now = journal) ∨
    ∃ before active after, journal.transactions = before ++ active :: after ∧ active.status = .running ∧
      journal.activeTransactionId = some active.id ∧ interruptActiveTransaction journal now = { journal with
        activeTransactionId := none, transactions := before ++ interruptedTransaction now active :: after } := by
  cases hactive : journal.activeTransactionId with
  | none => exact .inl ⟨rfl, by simp [interruptActiveTransaction, hactive]⟩
  | some id =>
      obtain ⟨active, hmem, hrunning, rfl⟩ := h.active_iff.mp hactive
      have hid := (h.transactions active hmem).id
      have hne : active.id ≠ [] := by
        intro hnil
        rw [hnil] at hid
        exact absurd hid (by decide)
      obtain ⟨found, hfound⟩ : ∃ found, journal.transactions.find? (fun entry => entry.id = active.id) = some found := by
        rw [← Option.isSome_iff_exists, List.find?_isSome]
        exact ⟨active, hmem, by simp⟩
      obtain rfl : found = active :=
        eq_of_id h.ids (List.mem_of_find?_eq_some hfound) hmem (by simpa using List.find?_some hfound)
      obtain ⟨before, after, hsplit, -, hupdate⟩ := updateFirst_split (f := interruptedTransaction now) hfound
      refine .inr ⟨before, found, after, hsplit, hrunning, rfl, ?_⟩
      unfold interruptActiveTransaction
      rw [hactive, Option.filter_some, if_pos (by simpa using hne)]
      simp only [hfound, hrunning, if_true, hupdate]

theorem interrupt_consistent (h : journal.Consistent) : (interruptActiveTransaction journal now).Consistent := by
  rcases interrupt_eq now h with ⟨-, heq⟩ | ⟨before, active, after, hsplit, hrunning, hactive, heq⟩
  · rwa [heq]
  · have hvalid := h.transactions active (hsplit ▸ List.mem_append_right _ List.mem_cons_self)
    have hsettled := (settled_iff (interruptedTransaction now active) h hsplit rfl nofun
      (hvalid.interrupted now)).mpr rfl
    have hlatest : (latestSucceeded (before ++ interruptedTransaction now active :: after)).map
        PipelineTransactionRecord.id = journal.lastCommittedTransactionId := by
      rw [h.lastCommitted, hsplit, latestSucceeded_append, latestSucceeded_cons, latestSucceeded_append,
        latestSucceeded_cons, if_neg (show ¬(interruptedTransaction now active).status = .succeeded from nofun),
        if_neg (by rw [hrunning]; nofun)]
    rw [hlatest, releaseActive, if_pos hactive] at hsettled
    rw [heq]
    exact hsettled

theorem interrupt_activeTransactionId (h : journal.Consistent) :
    (interruptActiveTransaction journal now).activeTransactionId = none := by
  rcases interrupt_eq now h with ⟨hnone, heq⟩ | ⟨before, active, after, -, -, -, heq⟩
  · rw [heq, hnone]
  · rw [heq]

theorem interrupt_ids (h : journal.Consistent) :
    (interruptActiveTransaction journal now).transactions.map PipelineTransactionRecord.id =
      journal.transactions.map PipelineTransactionRecord.id := by
  rcases interrupt_eq now h with ⟨-, heq⟩ | ⟨before, active, after, hsplit, -, -, heq⟩
  · rw [heq]
  · rw [heq, hsplit]
    simp [interruptedTransaction]

/-- Fewer transactions, none of them running. -/
theorem PipelineJournal.Consistent.filter (h : journal.Consistent) (hnone : journal.activeTransactionId = none)
    (p : PipelineTransactionRecord → Bool) :
    (rebindLastCommittedTransaction { journal with transactions := journal.transactions.filter p }).Consistent where
  transactions := fun t ht => h.transactions t (List.mem_of_mem_filter ht)
  ids := h.ids.sublist (List.filter_sublist.map _)
  active := by
    have hactive := h.active
    rw [hnone, Option.toList_none, runningIds, List.map_eq_nil_iff, List.filter_eq_nil_iff] at hactive
    simp only [rebindLastCommittedTransaction, hnone, Option.toList_none, runningIds, List.map_eq_nil_iff,
      List.filter_eq_nil_iff]
    exact fun t ht => hactive t (List.mem_of_mem_filter ht)
  lastCommitted := rfl
  retirements := h.retirements

/-- A new running transaction becomes the active one. -/
theorem PipelineJournal.Consistent.push {new : PipelineTransactionRecord} (h : journal.Consistent)
    (hnone : journal.activeTransactionId = none) (hnew : new.Valid) (hrunning : new.status = .running)
    (hfresh : new.id ∉ journal.transactions.map PipelineTransactionRecord.id) :
    { journal with transactions := journal.transactions ++ [new], activeTransactionId := some new.id }.Consistent where
  transactions := by
    intro t ht
    rcases List.mem_append.mp ht with ht | ht
    · exact h.transactions t ht
    · rw [List.mem_singleton.mp ht]
      exact hnew
  ids := by
    rw [List.map_append, List.map_singleton]
    exact h.ids.append (List.nodup_singleton _) (List.disjoint_singleton.mpr hfresh)
  active := by
    rw [runningIds_append, h.active, hnone, runningIds_cons, if_pos hrunning]
    rfl
  lastCommitted := by
    rw [h.lastCommitted, latestSucceeded_append, latestSucceeded_cons, if_neg (by rw [hrunning]; nofun)]
    rfl
  retirements := h.retirements

theorem started_valid {id : Text} {source : PipelineSource} {requestedStages : List PipelineStageId}
    (hid : isBounded 4096 id) (hstages : requestedStages.Nodup) :
    PipelineTransactionRecord.Valid ⟨⟨now.val, none, none, none⟩, id, source, requestedStages, .running, []⟩ where
  lifetime := ⟨now.2, nofun, nofun, nofun, fun _ => ⟨rfl, rfl, rfl⟩, fun hdone => absurd rfl hdone⟩
  id := hid
  requestedStages := hstages
  passCount := Nat.zero_le _
  passRecords := fun _ hpass => absurd hpass List.not_mem_nil

/-- A start leaves a consistent journal whose last transaction is the running one. -/
theorem start_consistent {source : PipelineSource} {requestedStages : List PipelineStageId} {uuid : Text}
    (h : journal.Consistent) (hstages : requestedStages.Nodup)
    (hid : source ≠ .reference → isBounded 4096 (startedTransactionId source uuid) ∧
      startedTransactionId source uuid ∉ journal.transactions.map PipelineTransactionRecord.id) :
    (startPipelineTransaction source requestedStages uuid now journal).Consistent ∧ ∃ ts t,
      (startPipelineTransaction source requestedStages uuid now journal).transactions = ts ++ [t] ∧
        t.status = .running := by
  refine ⟨?_, _, _, rfl, rfl⟩
  have hinterrupted := interrupt_consistent now h
  have hnone := interrupt_activeTransactionId now h
  unfold startPipelineTransaction
  by_cases hsource : source = .reference
  · subst hsource
    have hfiltered := hinterrupted.filter hnone fun entry => entry.id ≠ startedTransactionId .reference uuid
    have hreference : isBounded 4096 REFERENCE_PIPELINE_TRANSACTION_ID = true := by decide
    refine hfiltered.push hnone (started_valid now hreference hstages) rfl ?_
    intro hmem
    obtain ⟨t, ht, hsame⟩ := List.mem_map.mp hmem
    obtain ⟨-, hkept⟩ := List.mem_filter.mp ht
    exact (decide_eq_true_eq.mp hkept) hsame
  · obtain ⟨hbounded, hfresh⟩ := hid hsource
    rw [← interrupt_ids now h] at hfresh
    simp only [if_neg hsource]
    exact hinterrupted.push hnone (started_valid now hbounded hstages) rfl hfresh

end Start

end SecPlatform.Compilation
