import SecPlatform.DurableExecution.Lemmas.JournalCodec
import SecPlatform.DurableExecution.Writers

/-!
# What a request asks for occurs at most once

Every record that a request asks for carries a key that an accepted journal has once only.
-/

namespace SecPlatform.DurableExecution

open Contracts

/-! ## Keys -/

section Keys

variable {α β κ : Type}

/-- Entries that share a key occur once when the keys do. -/
theorem countP_le_one {p : α → Bool} (f : α → Option β) (key : β → κ) (k : κ) {xs : List α}
    (hkey : ∀ x, p x → ∃ b, f x = some b ∧ key b = k) (hn : ((xs.filterMap f).map key).Nodup) :
    xs.countP p ≤ 1 := by
  induction xs with
  | nil => simp
  | cons x xs ih =>
      by_cases hp : p x
      · obtain ⟨b, hb, rfl⟩ := hkey x hp
        rw [List.filterMap_cons_some hb, List.map_cons, List.nodup_cons] at hn
        have hnone : xs.countP p = 0 := by
          rw [List.countP_eq_zero]
          intro y hy hpy
          obtain ⟨c, hc, hck⟩ := hkey y hpy
          exact hn.1 (List.mem_map.mpr ⟨c, List.mem_filterMap.mpr ⟨y, hy, hc⟩, hck⟩)
        rw [List.countP_cons_of_pos hp, hnone]
      · rw [List.countP_cons_of_neg hp]
        refine ih ?_
        cases hf : f x with
        | none => rwa [List.filterMap_cons_none hf] at hn
        | some b =>
            rw [List.filterMap_cons_some hf, List.map_cons, List.nodup_cons] at hn
            exact hn.2

theorem countP_eq_one {p : α → Bool} {xs : List α} (h : xs.countP p ≤ 1) (hm : ∃ x ∈ xs, p x) : xs.countP p = 1 := by
  obtain ⟨x, hx, hp⟩ := hm
  exact le_antisymm h (List.countP_pos_iff.mpr ⟨x, hx, hp⟩)

/-- What occurs once in a list and occurs behind occurs nowhere before. -/
theorem notMem_of_countP {p : α → Bool} {xs ys : List α} (h : (xs ++ ys).countP p ≤ 1) (hy : ∃ y ∈ ys, p y) :
    ∀ x ∈ xs, p x = false := by
  intro x hx
  rw [List.countP_append] at h
  have hpos := List.countP_pos_iff.mpr hy
  by_contra hp
  have := List.countP_pos_iff.mpr ⟨x, hx, by simpa using hp⟩
  omega

end Keys

/-! ## Records -/

variable {intent : Sealed IntentFields} {records : List DurableRecord} {st : Observing}

theorem Accepts.countP_attemptStart (h : Accepts records intent st) (input : AppendAttemptStartInput) :
    records.countP (equivalentAttemptStart input) ≤ 1 := by
  refine countP_le_one DurableRecord.start? (fun s => s.fields.attemptNonceDigest.val) input.attemptNonceDigest ?_ ?_
  · intro record hrecord
    unfold equivalentAttemptStart at hrecord
    split at hrecord
    · rename_i fields hbody
      simp only [sameAttemptStart, Bool.and_eq_true, decide_eq_true_eq] at hrecord
      exact ⟨record.as fields, by rw [DurableRecord.start?, hbody], hrecord.1.1.1.1.1.1.1.1.1⟩
    · cases hrecord
  · have hmap := h.observed.nodup.map Subtype.val_injective
    rwa [startedNonces, starts, List.map_map] at hmap

theorem Accepts.countP_attemptResolution (h : Accepts records intent st) (input : AppendAttemptResolutionInput) :
    records.countP (equivalentAttemptResolution input) ≤ 1 := by
  have hnodup : (resolvedNonces records).Nodup := by
    have := h.observed.nodup
    rw [h.observed.attempts, List.nodup_append] at this
    exact this.1
  refine countP_le_one DurableRecord.resolution? (fun s => s.fields.attemptNonceDigest.val) input.attemptNonceDigest
    ?_ ?_
  · intro record hrecord
    unfold equivalentAttemptResolution at hrecord
    split at hrecord
    · rename_i fields hbody
      simp only [Bool.and_eq_true, decide_eq_true_eq] at hrecord
      exact ⟨record.as fields, by rw [DurableRecord.resolution?, hbody], hrecord.1.1⟩
    · cases hrecord
  · have hmap := hnodup.map Subtype.val_injective
    rwa [resolvedNonces, resolutions, List.map_map] at hmap

/-- Records of one attempt that share a key occur once when the keys of every attempt do. -/
theorem countP_le_one_of_attempt {φ κ : Type} {p : DurableRecord → Bool} (f : DurableRecord → Option (Sealed φ))
    (nonce : Sealed φ → Digest) (key : Sealed φ → κ) (n : Text) (k : κ)
    (hkey : ∀ r, p r → ∃ s, f r = some s ∧ (nonce s).val = n ∧ key s = k)
    (hn : ∀ d, (((records.filterMap f).filter fun s => nonce s = d).map key).Nodup) : records.countP p ≤ 1 := by
  by_cases hm : ∃ r ∈ records, p r
  · obtain ⟨r, _, hr⟩ := hm
    obtain ⟨s, _, rfl, _⟩ := hkey r hr
    refine countP_le_one (fun r => (f r).filter fun t => nonce t = nonce s) key k ?_ ?_
    · intro r' hr'
      obtain ⟨s', hs', hnonce, hk⟩ := hkey r' hr'
      exact ⟨s', by simp [hs', Subtype.ext hnonce], hk⟩
    · rw [← List.filter_filterMap]
      exact hn (nonce s)
  · push Not at hm
    rw [List.countP_eq_zero.mpr fun r hr => hm r hr]
    exact Nat.zero_le 1

theorem Accepts.countP_providerSettlement (h : Accepts records intent st) (input : AppendProviderSettlementInput) :
    records.countP (equivalentProviderSettlement input) ≤ 1 := by
  refine countP_le_one_of_attempt DurableRecord.settlement? (fun s => s.fields.attemptNonceDigest)
    (fun s => s.fields.requirementId) input.attemptNonceDigest input.requirementId ?_ ?_
  · intro record hrecord
    unfold equivalentProviderSettlement at hrecord
    split at hrecord
    · rename_i fields hbody
      simp only [Bool.and_eq_true, decide_eq_true_eq] at hrecord
      exact ⟨record.as fields, by rw [DurableRecord.settlement?, hbody], hrecord.1.1.1, hrecord.1.1.2⟩
    · cases hrecord
  · intro d
    obtain ⟨_, _, _, hattempt, _⟩ := h.observed.attempt d
    have hunique := hattempt.requirements
    rwa [← hattempt.settlements] at hunique

theorem Accepts.countP_domainReadback (h : Accepts records intent st) (input : AppendDomainReadbackInput) :
    records.countP (equivalentDomainReadback input) ≤ 1 := by
  refine countP_le_one_of_attempt DurableRecord.readback? (fun s => s.fields.attemptNonceDigest) (fun _ => ())
    input.attemptNonceDigest () ?_ ?_
  · intro record hrecord
    unfold equivalentDomainReadback at hrecord
    split at hrecord
    · rename_i fields hbody
      simp only [Bool.and_eq_true, decide_eq_true_eq] at hrecord
      exact ⟨record.as fields, by rw [DurableRecord.readback?, hbody], hrecord.1.1, rfl⟩
    · cases hrecord
  · intro d
    obtain ⟨_, readback, _, hattempt, _⟩ := h.observed.attempt d
    have hone := hattempt.readback
    unfold readbacksOf at hone
    rw [hone]
    cases readback <;> simp

theorem Accepts.countP_lostHandle (h : Accepts records intent st) (input : AppendLostHandleInput) :
    records.countP (equivalentLostHandle input) ≤ 1 := by
  refine countP_le_one_of_attempt DurableRecord.lostHandle? (fun s => s.fields.attemptNonceDigest) (fun _ => ())
    input.attemptNonceDigest () ?_ ?_
  · intro record hrecord
    unfold equivalentLostHandle at hrecord
    split at hrecord
    · rename_i fields hbody
      simp only [Bool.and_eq_true, decide_eq_true_eq] at hrecord
      exact ⟨record.as fields, by rw [DurableRecord.lostHandle?, hbody], hrecord.1, rfl⟩
    · cases hrecord
  · intro d
    obtain ⟨_, _, lostHandle, hattempt, _⟩ := h.observed.attempt d
    have hone := hattempt.lostHandle
    unfold lostHandlesOf at hone
    rw [hone]
    cases lostHandle <;> simp

theorem Accepts.countP_intent (h : Accepts records intent st) [Sha256] (limits : StoreLimits)
    (input : CreateIntentInput) : records.countP (StoreRequest.equivalentIntent limits input) ≤ 1 := by
  obtain ⟨first, rest, fields, rfl, _, _⟩ := h.head
  rw [List.countP_cons, List.countP_eq_zero.mpr, Nat.zero_add]
  · split <;> simp
  · intro record hrecord hp
    obtain ⟨pre, post, rfl⟩ := List.append_of_mem hrecord
    rw [show first :: (pre ++ record :: post) = (first :: pre) ++ record :: post from rfl] at h
    have hno := h.isIntent_iff.not.mpr (List.cons_ne_nil _ _)
    apply hno
    unfold StoreRequest.equivalentIntent at hp
    split at hp
    · rename_i hbody _
      simp [DurableRecord.isIntent, hbody]
    · cases hp

/-- An accepted journal has every requested record at most once. -/
theorem Accepts.countP_asks [Sha256] (h : Accepts records intent st) {limits : StoreLimits} {request : StoreRequest}
    {ask : DurableRecord → Bool} (hask : ask ∈ request.asks limits) : records.countP ask ≤ 1 := by
  cases request with
  | createIntent input => rw [List.mem_singleton.mp hask]; exact h.countP_intent limits input
  | appendAttemptStart input => rw [List.mem_singleton.mp hask]; exact h.countP_attemptStart input
  | appendRecoveredRetryAttemptStart resolution start =>
      simp only [StoreRequest.asks, List.mem_cons, List.not_mem_nil, or_false] at hask
      rcases hask with rfl | rfl
      · exact h.countP_attemptResolution _
      · exact h.countP_attemptStart _
  | appendProviderSettlementReference input => rw [List.mem_singleton.mp hask]; exact h.countP_providerSettlement input
  | appendDomainReadbackReference input => rw [List.mem_singleton.mp hask]; exact h.countP_domainReadback input
  | appendLostHandleReference input => rw [List.mem_singleton.mp hask]; exact h.countP_lostHandle input
  | appendAttemptResolution input => rw [List.mem_singleton.mp hask]; exact h.countP_attemptResolution input

end SecPlatform.DurableExecution
