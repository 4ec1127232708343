import SecPlatform.Compilation.Lemmas.Operations

/-!
# Retention

The oldest transactions are dropped. The running transaction and the last committed one stay, and what is left
is valid.
-/

namespace SecPlatform.Compilation

variable {journal : PipelineJournal}

theorem retain_of_le (h : journal.transactions.length ≤ MAX_RETAINED_TRANSACTIONS) :
    retainJournalTransactions journal = journal := if_pos h

/-- The transaction that retention looks for is the last committed one. -/
theorem find_lastCommitted (h : journal.Consistent) :
    ((journal.lastCommittedTransactionId.filter (· ≠ [])).bind fun id =>
      journal.transactions.find? fun transaction => transaction.id = id) = latestSucceeded journal.transactions := by
  rw [h.lastCommitted]
  cases hlatest : latestSucceeded journal.transactions with
  | none => rfl
  | some committed =>
      obtain ⟨hmem, -⟩ := latestSucceeded_mem hlatest
      have hne : committed.id ≠ [] := by
        intro hnil
        have hid := (h.transactions committed hmem).id
        rw [hnil] at hid
        exact absurd hid (by decide)
      rw [Option.map_some, Option.filter_some, if_pos (by simpa using hne), Option.bind_some]
      cases hfound : journal.transactions.find? fun transaction => transaction.id = committed.id with
      | none => exact absurd (List.find?_eq_none.mp hfound committed hmem) (by simp)
      | some found =>
          rw [eq_of_id h.ids (List.mem_of_find?_eq_some hfound) hmem (by simpa using List.find?_some hfound)]

/-- A consistent journal with the transactions that are left, in their order. -/
theorem PipelineJournal.Consistent.sublist {ts : List PipelineTransactionRecord} (h : journal.Consistent)
    (hsub : ts.Sublist journal.transactions) (hrunning : runningIds ts = runningIds journal.transactions)
    (hlatest : latestSucceeded ts = latestSucceeded journal.transactions) :
    { journal with transactions := ts }.Consistent where
  transactions := fun t ht => h.transactions t (hsub.subset ht)
  ids := h.ids.sublist (hsub.map _)
  active := hrunning.trans h.active
  lastCommitted := by rw [h.lastCommitted, hlatest]
  retirements := h.retirements

/-- A suffix that still has the running transaction, which is the last one. -/
theorem runningIds_drop {k : Nat} (h : journal.Consistent) (hk : k < journal.transactions.length)
    (hlast : ∃ ts t, journal.transactions = ts ++ [t] ∧ t.status = .running) :
    runningIds (journal.transactions.drop k) = runningIds journal.transactions := by
  obtain ⟨ts, t, hsplit, hrunning⟩ := hlast
  have hself : journal.activeTransactionId = some t.id :=
    h.active_iff.mpr ⟨t, hsplit ▸ List.mem_append_right _ List.mem_cons_self, hrunning, rfl⟩
  have hactive := h.active
  rw [hsplit, runningIds_append, runningIds_cons, if_pos hrunning, hself] at hactive
  have hlength := congrArg List.length hactive
  simp only [List.length_append, List.length_singleton, Option.toList_some] at hlength
  have hnone : runningIds ts = [] := List.length_eq_zero_iff.mp (by omega)
  have hdropped : runningIds (ts.drop k) = [] := by
    rw [runningIds, List.map_eq_nil_iff, List.filter_eq_nil_iff] at hnone ⊢
    exact fun t ht => hnone t (List.mem_of_mem_drop ht)
  rw [hsplit, List.length_append, List.length_singleton] at hk
  rw [hsplit, List.drop_append_of_le_length (by omega), runningIds_append, runningIds_append, hnone, hdropped]

/-- A suffix that still has the latest success, or a journal without one. -/
theorem latestSucceeded_drop {k : Nat} (h : journal.Consistent)
    (hkept : ∀ committed, latestSucceeded journal.transactions = some committed →
      committed ∈ journal.transactions.drop k) :
    latestSucceeded (journal.transactions.drop k) = latestSucceeded journal.transactions := by
  have hnodup : (journal.transactions.take k ++ journal.transactions.drop k).Nodup := by
    rw [List.take_append_drop]
    exact h.ids.of_map _
  have hsplit : latestSucceeded journal.transactions =
      (latestSucceeded (journal.transactions.drop k)).or (latestSucceeded (journal.transactions.take k)) := by
    rw [← latestSucceeded_append, List.take_append_drop]
  cases hdrop : latestSucceeded (journal.transactions.drop k) with
  | some t => rw [hsplit, hdrop, Option.some_or]
  | none =>
      rw [hdrop, Option.none_or] at hsplit
      cases htake : latestSucceeded (journal.transactions.take k) with
      | none => rw [hsplit, htake]
      | some t =>
          have hmem := hkept t (hsplit.trans htake)
          exact absurd (latestSucceeded_mem htake).2 (latestSucceeded_eq_none.mp hdrop t hmem)

/-- What retention leaves of a journal that is too long. -/
theorem retain_eq (h : journal.Consistent) (hlong : MAX_RETAINED_TRANSACTIONS < journal.transactions.length) :
    (∃ k, k + MAX_RETAINED_TRANSACTIONS = journal.transactions.length ∧
      (∀ committed, latestSucceeded journal.transactions = some committed → committed ∈ journal.transactions.drop k) ∧
      retainJournalTransactions journal = { journal with transactions := journal.transactions.drop k }) ∨
    ∃ k committed, k + (MAX_RETAINED_TRANSACTIONS - 1) = journal.transactions.length ∧
      latestSucceeded journal.transactions = some committed ∧ committed ∈ journal.transactions.take k ∧
      (∀ t ∈ journal.transactions.drop k, t.status ≠ .succeeded) ∧
      retainJournalTransactions journal = { journal with transactions := committed :: journal.transactions.drop k } := by
  unfold retainJournalTransactions
  rw [if_neg (by omega)]
  dsimp only
  rw [find_lastCommitted h]
  cases hlatest : latestSucceeded journal.transactions with
  | none => exact .inl ⟨_, Nat.sub_add_cancel hlong.le, nofun, rfl⟩
  | some committed =>
      obtain ⟨hmem, hsucceeded⟩ := latestSucceeded_mem hlatest
      dsimp only
      split
      next hany =>
        refine .inl ⟨_, Nat.sub_add_cancel hlong.le, fun c hc => ?_, rfl⟩
        obtain rfl := Option.some.inj hc
        obtain ⟨t, ht, hid⟩ := List.any_eq_true.mp hany
        rw [decide_eq_true_eq] at hid
        rwa [← eq_of_id h.ids (List.mem_of_mem_drop ht) hmem hid]
      next hany =>
        rw [Bool.not_eq_true, List.any_eq_false] at hany
        -- the latest success is before the tail, so no transaction of the tail has succeeded
        have hnone : ∀ t ∈ journal.transactions.drop (journal.transactions.length - MAX_RETAINED_TRANSACTIONS),
            t.status ≠ .succeeded := by
          rw [← latestSucceeded_eq_none]
          by_contra hsome
          obtain ⟨t, ht⟩ := Option.ne_none_iff_exists'.mp hsome
          have hfirst : latestSucceeded journal.transactions = some t := by
            rw [← List.take_append_drop (journal.transactions.length - MAX_RETAINED_TRANSACTIONS) journal.transactions,
              latestSucceeded_append, ht, Option.some_or]
          obtain rfl := Option.some.inj (hlatest.symm.trans hfirst)
          exact hany committed (latestSucceeded_mem ht).1 (by simp)
        have hsub : ∀ t ∈ journal.transactions.drop (journal.transactions.length - (MAX_RETAINED_TRANSACTIONS - 1)),
            t ∈ journal.transactions.drop (journal.transactions.length - MAX_RETAINED_TRANSACTIONS) :=
          (List.drop_sublist_drop_left _ (by omega)).subset
        refine .inr ⟨_, committed, Nat.sub_add_cancel (by omega), rfl, ?_, fun t ht => hnone t (hsub t ht), rfl⟩
        rw [← List.take_append_drop (journal.transactions.length - (MAX_RETAINED_TRANSACTIONS - 1)) journal.transactions]
          at hmem
        exact (List.mem_append.mp hmem).resolve_right fun hdrop => hnone committed (hsub committed hdrop) hsucceeded

/-- Retention leaves a valid journal when the running transaction is the last one. -/
theorem retain_valid (h : journal.Consistent)
    (hlast : MAX_RETAINED_TRANSACTIONS < journal.transactions.length →
      ∃ ts t, journal.transactions = ts ++ [t] ∧ t.status = .running) : (retainJournalTransactions journal).Valid := by
  by_cases hlong : MAX_RETAINED_TRANSACTIONS < journal.transactions.length
  swap
  · rw [retain_of_le (Nat.le_of_not_lt hlong)]
    exact ⟨h, Nat.le_of_not_lt hlong⟩
  rcases retain_eq h hlong with ⟨k, hk, hkept, heq⟩ | ⟨k, committed, hk, hlatest, hmem, hnone, heq⟩
  · rw [heq]
    refine ⟨h.sublist (List.drop_sublist _ _) (runningIds_drop h (by unfold MAX_RETAINED_TRANSACTIONS at hk; omega)
      (hlast hlong)) (latestSucceeded_drop h hkept), ?_⟩
    rw [List.length_drop]
    omega
  · rw [heq]
    refine ⟨h.sublist ?_ ?_ ?_, ?_⟩
    · conv_rhs => rw [← List.take_append_drop k journal.transactions]
      exact (List.singleton_sublist.mpr hmem).append (List.Sublist.refl _)
    · rw [runningIds_cons, if_neg (by rw [(latestSucceeded_mem hlatest).2]; nofun), List.nil_append]
      exact runningIds_drop h (by unfold MAX_RETAINED_TRANSACTIONS at hk; omega) (hlast hlong)
    · rw [latestSucceeded_cons, latestSucceeded_eq_none.mpr hnone, if_pos (latestSucceeded_mem hlatest).2,
        Option.none_or, hlatest]
    · rw [List.length_cons, List.length_drop]
      unfold MAX_RETAINED_TRANSACTIONS at hk ⊢
      omega

/-- Retention keeps the running transaction and the last committed one. -/
theorem retain_keeps (h : journal.Consistent)
    (hlast : MAX_RETAINED_TRANSACTIONS < journal.transactions.length →
      ∃ ts t, journal.transactions = ts ++ [t] ∧ t.status = .running) {t : PipelineTransactionRecord}
    (ht : t ∈ journal.transactions)
    (hkept : t.status = .running ∨ journal.lastCommittedTransactionId = some t.id) :
    t ∈ (retainJournalTransactions journal).transactions := by
  have hvalid := retain_valid h hlast
  have hfields : (retainJournalTransactions journal).activeTransactionId = journal.activeTransactionId ∧
      (retainJournalTransactions journal).lastCommittedTransactionId = journal.lastCommittedTransactionId ∧
      (retainJournalTransactions journal).transactions ⊆ journal.transactions := by
    by_cases hlong : MAX_RETAINED_TRANSACTIONS < journal.transactions.length
    swap
    · rw [retain_of_le (Nat.le_of_not_lt hlong)]
      exact ⟨rfl, rfl, List.Subset.refl _⟩
    rcases retain_eq h hlong with ⟨k, -, -, heq⟩ | ⟨k, committed, -, hlatest, -, -, heq⟩
    · rw [heq]
      exact ⟨rfl, rfl, List.drop_subset _ _⟩
    · rw [heq]
      exact ⟨rfl, rfl, List.cons_subset.mpr ⟨(latestSucceeded_mem hlatest).1, List.drop_subset _ _⟩⟩
  obtain ⟨hactive, hcommitted, hsub⟩ := hfields
  -- the id is named by the retained journal, and in the old one it names only this transaction
  rcases hkept with hrunning | hlast'
  · have hself := h.active_iff.mpr ⟨t, ht, hrunning, rfl⟩
    rw [← hactive] at hself
    obtain ⟨t', ht', -, hid⟩ := hvalid.active_iff.mp hself
    rwa [← eq_of_id h.ids (hsub ht') ht hid]
  · rw [← hcommitted, hvalid.lastCommitted] at hlast'
    obtain ⟨t', ht', hid⟩ := Option.map_eq_some_iff.mp hlast'
    rw [← eq_of_id h.ids (hsub (latestSucceeded_mem ht').1) ht hid]
    exact (latestSucceeded_mem ht').1

end SecPlatform.Compilation
