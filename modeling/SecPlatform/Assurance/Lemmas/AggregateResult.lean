import SecPlatform.Assurance.AggregateResult
import SecPlatform.Assurance.Lemmas.Claims
import SecPlatform.VerificationAction.Lemmas.SameData

/-!
# Reading an aggregate back

The comparison of snapshots is equality of data. Every check of a serialized aggregate passes on the data of a result
that is valid, in whatever order the members are listed, and what the writer returns is valid.
-/

namespace SecPlatform.Assurance

open Contracts
open VerificationAction (SameData SameItems sameData_obj_iff sameItems_iff member)

/-! ## Comparing snapshots -/

theorem strictlyEqual_iff {n m : JsNumber} :
    strictlyEqual n m = true ↔ n = m ∨ ∃ a b, n = .zero a ∧ m = .zero b := by
  simp only [strictlyEqual, Bool.or_eq_true, Bool.and_eq_true, decide_eq_true_eq]
  refine or_congr_right ⟨?_, ?_⟩
  · rintro ⟨rfl | rfl, rfl | rfl⟩ <;> exact ⟨_, _, rfl, rfl⟩
  · rintro ⟨a, b, rfl, rfl⟩
    cases a <;> cases b <;> simp

mutual
/-- Snapshots are equal exactly when they hold the same data. -/
theorem snapshotsEqual_iff : (v w : Value) → v.UniqueKeys → (snapshotsEqual v w = true ↔ SameData v w)
  | .null, w, _ => by cases w <;> simp [snapshotsEqual, SameData]
  | .bool a, w, _ => by cases w <;> simp [snapshotsEqual, SameData]
  | .num n, w, _ => by
      cases w with
      | num m => exact strictlyEqual_iff
      | _ => simp [snapshotsEqual, SameData]
  | .str s, w, _ => by cases w <;> simp [snapshotsEqual, SameData]
  | .arr xs, w, h => by
      cases w with
      | arr ys => exact itemsEqual_iff xs ys h
      | _ => simp [snapshotsEqual, SameData]
  | .obj ms, w, h => by
      cases w with
      | obj ns =>
          rw [snapshotsEqual, Bool.and_eq_true, decide_eq_true_eq, membersEqual_iff ms ns h.2, sameData_obj_iff h.1]
          have hkeys : sortBy id (ms.map Prod.fst) = sortBy id (ns.map Prod.fst) ↔
              (ns.map Prod.fst).Perm (ms.map Prod.fst) :=
            ⟨fun heq => (sortBy_perm _).symm.trans (heq ▸ sortBy_perm _), fun hperm => (sortBy_id_eq_of_perm hperm).symm⟩
          rw [hkeys]
          refine and_congr_right fun hperm => ⟨fun hall key hkey => ?_, fun hall m hm => ?_⟩
          · obtain ⟨m, hm, rfl⟩ := List.mem_map.mp hkey
            obtain ⟨w, hw, hsame⟩ := hall m hm
            rw [VerificationAction.member_of_mem h.1 hm, member, hw]
            exact hsame
          · obtain ⟨n, hn, hkey⟩ := List.mem_map.mp (hperm.mem_iff.mpr (List.mem_map_of_mem hm))
            have hget := Json.get?_of_mem (hperm.nodup_iff.mpr h.1) hn
            have hsame := hall m.1 (List.mem_map_of_mem hm)
            rw [VerificationAction.member_of_mem h.1 hm, ← hkey, member, hget] at hsame
            exact ⟨n.2, hkey ▸ hget, hsame⟩
      | _ => simp [snapshotsEqual, SameData]

theorem itemsEqual_iff : (xs ys : List Value) → Json.UniqueKeysItems xs → (itemsEqual xs ys = true ↔ SameItems xs ys)
  | [], ys, _ => by cases ys <;> simp [itemsEqual, SameItems]
  | x :: xs, ys, h => by
      cases ys with
      | nil => simp [itemsEqual, SameItems]
      | cons y ys =>
          rw [itemsEqual, Bool.and_eq_true, snapshotsEqual_iff x y h.1, itemsEqual_iff xs ys h.2]
          rfl

theorem membersEqual_iff : (ms ns : List (Text × Value)) → Json.UniqueKeysMembers ms →
    (membersEqual ms ns = true ↔ ∀ m ∈ ms, ∃ w, Json.get? m.1 ns = some w ∧ SameData m.2 w)
  | [], _, _ => by simp [membersEqual]
  | (key, v) :: ms, ns, h => by
      rw [membersEqual, Bool.and_eq_true, membersEqual_iff ms ns h.2, List.forall_mem_cons]
      refine and_congr_left fun _ => ?_
      cases Json.get? key ns with
      | none => simp
      | some w => simpa using snapshotsEqual_iff v w h.1
end

/-! ## Data of texts -/

variable {v w : Value} {label : Text}

theorem sameData_str {t : Text} (h : SameData v (.str t)) : v = .str t := by
  cases v with
  | str s => exact congrArg Json.str h
  | _ => cases h

theorem sameData_bool {b : Bool} (h : SameData v (.bool b)) : v = .bool b := by
  cases v with
  | bool a => exact congrArg Json.bool h
  | _ => cases h

theorem sameData_arr {ys : List Value} (h : SameData v (.arr ys)) : ∃ xs, v = .arr xs ∧ List.Forall₂ SameData xs ys := by
  cases v with
  | arr xs => exact ⟨xs, rfl, sameItems_iff.mp h⟩
  | _ => cases h

theorem sameData_texts {texts : List Text} (h : SameData v (.arr (texts.map .str))) : v = .arr (texts.map .str) := by
  obtain ⟨xs, rfl, hxs⟩ := sameData_arr h
  rw [List.forall₂_map_right_iff] at hxs
  have heq : List.Forall₂ (· = ·) xs (texts.map Json.str) :=
    List.forall₂_map_right_iff.mpr (hxs.imp fun _ _ => sameData_str)
  rw [List.forall₂_eq_eq_eq] at heq
  rw [heq]

theorem assertArray_arr {items : List Value} (h : v = .arr items) : assertArray v label = .ok items := by
  rw [h]
  rfl

theorem assertExactKeys_of_perm {ms : List (Text × Value)} {expected : List Text}
    (h : (ms.map Prod.fst).Perm expected) : assertExactKeys ms expected label = .ok () :=
  require_eq_ok.mpr (sortBy_id_eq_of_perm h)

/-! ## Checks that read -/

theorem assertIdentityValue_str {text : Text} (h : IsIdentity text) : assertIdentityValue (.str text) label = .ok text := by
  have hstring : assertString text label = .ok () := require_eq_ok.mpr h.1
  rw [assertIdentityValue, assertStringValue, hstring, ok_bind, pure_eq_ok, ok_bind, assertIdentity_eq_ok.mpr h]
  rfl

theorem assertStringSet_toText {α : Type} {toText : α → Text} {allowed : List α} (hinj : toText.Injective) {a : α}
    (ha : a ∈ allowed) (hplain : isPlainText (toText a)) :
    assertStringSet toText allowed (.str (toText a)) label = .ok a := by
  have hstring : assertString (toText a) label = .ok () := require_eq_ok.mpr hplain
  have hfind : allowed.find? (fun b => decide (toText b = toText a)) = some a := by
    have hsome : (allowed.find? fun b => decide (toText b = toText a)).isSome :=
      List.find?_isSome.mpr ⟨a, ha, decide_eq_true rfl⟩
    obtain ⟨b, hb⟩ := Option.isSome_iff_exists.mp hsome
    have htext := List.find?_some hb
    rw [hb, hinj (of_decide_eq_true htext)]
  rw [assertStringSet, assertStringValue, hstring, ok_bind, pure_eq_ok, ok_bind, hfind]
  rfl

theorem status_toText_injective : Function.Injective VerificationResultStatus.toText := by
  intro a b h
  cases a <;> cases b <;> first | rfl | exact absurd h (by decide)

/-- A reason the status allows. -/
def StatusDecision.Valid (decision : StatusDecision) : Prop := decision.reasonCode ∈ statusReasons decision.status

theorem assertStatusReasonValue_toText {decision : StatusDecision} (h : decision.Valid) :
    assertStatusReasonValue (.str decision.status.toText) (.str decision.reasonCode.toText) label = .ok decision := by
  have hstatus : decision.status ∈ RESULT_STATUSES ∧ isPlainText decision.status.toText := by
    cases decision.status <;> decide
  have hreason : decision.reasonCode ∈ REASON_CODES ∧ isPlainText decision.reasonCode.toText := by
    cases decision.reasonCode <;> decide
  have hallowed : assertStatusReason decision.status decision.reasonCode label = .ok () := require_eq_ok.mpr h
  rw [assertStatusReasonValue, assertStringSet_toText status_toText_injective hstatus.1 hstatus.2, ok_bind,
    assertStringSet_toText reasonCode_toText_injective hreason.1 hreason.2, ok_bind, hallowed]
  rfl

theorem assertUniqueIdentityItems_map {values seen : List Text} (h : AreIdentities (seen ++ values)) :
    assertUniqueIdentityItems label seen (values.map .str) = .ok values := by
  induction values generalizing seen with
  | nil => rfl
  | cons value values ih =>
      have hvalue : IsIdentity value := h.1 value (by simp)
      have hseen : value ∉ seen := fun hmem =>
        (List.nodup_append.mp h.2).2.2 value hmem value List.mem_cons_self rfl
      have hrest : assertUniqueIdentityItems label (seen ++ [value]) (values.map .str) = .ok values := ih (by simpa using h)
      rw [List.map_cons, assertUniqueIdentityItems, assertIdentityValue_str hvalue, ok_bind, require, if_pos hseen, ok_bind,
        hrest]
      rfl

/-- What the checks of a claim result ask for. -/
structure ValidClaimResult (gates : List VerificationGateResult) (r : VerificationClaimResult) : Prop where
  claimId : IsIdentity r.claimId
  decision : r.toStatusDecision.Valid
  contributing : AreIdentities r.contributingGateIds
  known : ∀ gateId ∈ r.contributingGateIds, gateId ∈ gates.map VerificationGateResult.gateId
  covered : r.status = .passed → r.coverageComplete
  observed : r.status = .passed → r.contributingGateIds ≠ []

/-- The members of a value with the data of a record, under the keys of the record. -/
theorem sameData_record {fields : List (Text × Value)} (hunique : v.UniqueKeys) (h : SameData v (.obj fields)) :
    ∃ ms, v = .obj ms ∧ (ms.map Prod.fst).Perm (fields.map Prod.fst) ∧
      ∀ f ∈ fields, SameData (field ms f.1) f.2 := by
  cases v with
  | obj ms =>
      obtain ⟨hperm, hsame⟩ := (sameData_obj_iff hunique.1).mp h
      refine ⟨ms, rfl, hperm.symm, fun f hf => ?_⟩
      have hfield := hsame f.1 (hperm.mem_iff.mp (List.mem_map_of_mem hf))
      rwa [VerificationAction.member_of_mem (hperm.nodup_iff.mpr hunique.1) hf] at hfield
  | _ => cases h

theorem assertVerificationClaimResult_of_same {gates : List VerificationGateResult} {r : VerificationClaimResult}
    (hvalid : ValidClaimResult gates r) (hunique : v.UniqueKeys) (h : SameData v r.toValue) :
    assertVerificationClaimResult v label = .ok r := by
  obtain ⟨ms, rfl, hkeys, hfields⟩ := sameData_record hunique h
  simp only [List.forall_mem_cons] at hfields
  obtain ⟨hclaimId, hstatus, hreason, hgates, hcoverage, -⟩ := hfields
  have hgates := sameData_texts hgates
  rw [assertVerificationClaimResult]
  refine bind_eq_ok.mpr ⟨ms, rfl, check_bind_eq_ok.mpr ⟨assertExactKeys_of_perm hkeys, ?_⟩⟩
  refine bind_eq_ok.mpr ⟨r.claimId, sameData_str hclaimId ▸ assertIdentityValue_str hvalid.claimId, ?_⟩
  refine bind_eq_ok.mpr ⟨r.toStatusDecision, ?_, bind_eq_ok.mpr ⟨_, assertArray_arr hgates, ?_⟩⟩
  · rw [sameData_str hstatus, sameData_str hreason]
    exact assertStatusReasonValue_toText hvalid.decision
  refine bind_eq_ok.mpr ⟨r.contributingGateIds, assertUniqueIdentityItems_map (by simpa using hvalid.contributing), ?_⟩
  refine bind_eq_ok.mpr ⟨r.coverageComplete, sameData_bool hcoverage ▸ rfl, ?_⟩
  exact check_bind_eq_ok.mpr ⟨require_eq_ok.mpr hvalid.covered, check_bind_eq_ok.mpr
    ⟨require_eq_ok.mpr hvalid.observed, rfl⟩⟩

theorem assertClaimResults_of_same {gates : List VerificationGateResult} {results : List VerificationClaimResult}
    {values : List Value} {seen : List Text} (hvalid : ∀ r ∈ results, ValidClaimResult gates r)
    (hids : (seen ++ results.map VerificationClaimResult.claimId).Nodup) (hunique : ∀ v ∈ values, v.UniqueKeys)
    (h : List.Forall₂ (fun v r => SameData v r.toValue) values results) :
    assertClaimResults seen values = .ok results := by
  induction h generalizing seen with
  | nil => rfl
  | @cons value r values results hsame _ ih =>
      rw [List.forall_mem_cons] at hvalid hunique
      rw [List.map_cons] at hids
      have hseen : r.claimId ∉ seen := fun hmem =>
        (List.nodup_append.mp hids).2.2 r.claimId hmem r.claimId List.mem_cons_self rfl
      have hrest : assertClaimResults (seen ++ [r.claimId]) values = .ok results :=
        ih hvalid.2 (by simpa using hids) hunique.2
      rw [assertClaimResults]
      exact bind_eq_ok.mpr ⟨r, assertVerificationClaimResult_of_same hvalid.1 hunique.1 hsame,
        check_bind_eq_ok.mpr ⟨require_eq_ok.mpr hseen, bind_eq_ok.mpr ⟨results, hrest, rfl⟩⟩⟩

/-! ## Plain data -/

/-- A value of finite numbers without a `toJSON` member. -/
def Plain (v : Value) : Prop := ∀ label, assertVerificationData label v = .ok ()

theorem plain_arr {items : List Value} (h : ∀ item ∈ items, Plain item) : Plain (.arr items) := by
  intro label
  rw [assertVerificationData]
  generalize 0 = index
  induction items generalizing index with
  | nil => rfl
  | cons item items ih =>
      rw [List.forall_mem_cons] at h
      exact check_bind_eq_ok.mpr ⟨h.1 _, ih h.2 _⟩

theorem plain_obj {ms : List (Text × Value)} (hkeys : Text.ofString "toJSON" ∉ ms.map Prod.fst) (h : ∀ m ∈ ms, Plain m.2) :
    Plain (.obj ms) := by
  intro label
  rw [assertVerificationData]
  refine check_bind_eq_ok.mpr ⟨require_eq_ok.mpr hkeys, ?_⟩
  clear hkeys
  induction ms with
  | nil => rfl
  | cons m ms ih =>
      rw [List.forall_mem_cons] at h
      exact check_bind_eq_ok.mpr ⟨h.1 _, ih h.2⟩

theorem plain_str_of_same {t : Text} (h : SameData v (.str t)) : Plain v := by
  rw [sameData_str h]
  exact fun _ => rfl

theorem plain_record {fields : List (Text × Value)} (hunique : v.UniqueKeys) (h : SameData v (.obj fields))
    (hkeys : Text.ofString "toJSON" ∉ fields.map Prod.fst)
    (hfields : ∀ f ∈ fields, ∀ w, w.UniqueKeys → SameData w f.2 → Plain w) : Plain v := by
  obtain ⟨ms, rfl, hperm, hsame⟩ := sameData_record hunique h
  refine plain_obj (fun hmem => hkeys (hperm.mem_iff.mp hmem)) fun m hm => ?_
  obtain ⟨f, hf, hkey⟩ := List.mem_map.mp (hperm.mem_iff.mp (List.mem_map_of_mem hm))
  have hfield := hsame f hf
  rw [hkey] at hfield
  have hvalue : field ms m.1 = m.2 := VerificationAction.member_of_mem hunique.1 hm
  exact hfields f hf m.2 (Json.uniqueKeysMembers_iff.mp hunique.2 m hm) (hvalue ▸ hfield)

theorem plain_claimResult {r : VerificationClaimResult} (hunique : v.UniqueKeys) (h : SameData v r.toValue) :
    Plain v := by
  refine plain_record hunique h (by dsimp only [List.map]; decide) ?_
  simp only [List.forall_mem_cons]
  refine ⟨fun _ _ => plain_str_of_same, fun _ _ => plain_str_of_same, fun _ _ => plain_str_of_same, fun w _ hw => ?_,
    fun w _ hw => ?_, List.forall_mem_nil _⟩
  · rw [sameData_texts hw]
    refine plain_arr fun item hitem => ?_
    obtain ⟨_, -, rfl⟩ := List.mem_map.mp hitem
    exact fun _ => rfl
  · rw [sameData_bool hw]
    exact fun _ => rfl

theorem plain_aggregateResult {result : VerificationAggregateResult} (hunique : v.UniqueKeys)
    (h : SameData v result.toValue) : Plain v := by
  refine plain_record hunique h (by dsimp only [List.map]; decide) ?_
  simp only [List.forall_mem_cons]
  refine ⟨fun _ _ => plain_str_of_same, fun _ _ => plain_str_of_same, fun w hw hsame => ?_, List.forall_mem_nil _⟩
  obtain ⟨values, rfl, hvalues⟩ := sameData_arr hsame
  rw [List.forall₂_map_right_iff] at hvalues
  refine plain_arr fun value hvalue => ?_
  obtain ⟨r, -, hr⟩ := forall₂_exists_right hvalues hvalue
  exact plain_claimResult (Json.uniqueKeysItems_iff.mp hw value hvalue) hr

/-! ## What the writer returns -/

section Writer

variable {input : VerificationAggregateInput} {claim : VerificationClaimDefinition}

/-- What a gate result must have passed. -/
theorem gate_checked {gate : VerificationGateResult} (h : assertVerificationGateResult gate = .ok ()) :
    IsIdentity gate.gateId ∧ gate.reasonCode ∈ statusReasons gate.status := by
  unfold assertVerificationGateResult at h
  obtain ⟨-, h⟩ := check_bind_eq_ok.mp h
  obtain ⟨hgateId, h⟩ := check_bind_eq_ok.mp h
  obtain ⟨-, h⟩ := check_bind_eq_ok.mp h
  obtain ⟨-, h⟩ := check_bind_eq_ok.mp h
  obtain ⟨-, h⟩ := check_bind_eq_ok.mp h
  obtain ⟨-, h⟩ := check_bind_eq_ok.mp h
  obtain ⟨-, h⟩ := check_bind_eq_ok.mp h
  obtain ⟨-, h⟩ := check_bind_eq_ok.mp h
  obtain ⟨hreason, -⟩ := check_bind_eq_ok.mp h
  exact ⟨assertIdentity_eq_ok.mp hgateId, require_eq_ok.mp hreason⟩

theorem selectionUnresolved_valid : selectionUnresolved.Valid := by
  unfold StatusDecision.Valid
  decide

theorem observationDecision_valid {gate : VerificationGateResult} (h : gate.reasonCode ∈ statusReasons gate.status) :
    (observationDecision claim gate).Valid := by
  unfold observationDecision
  split
  · exact selectionUnresolved_valid
  · split
    · exact selectionUnresolved_valid
    · exact h

theorem decideRequiredGate_valid {gateId : Text} {observations : List VerificationGateResult}
    (h : ∀ gate ∈ observations, gate.reasonCode ∈ statusReasons gate.status) :
    (decideRequiredGate claim gateId observations).toStatusDecision.Valid := by
  unfold decideRequiredGate
  split
  · exact (by decide : VerificationReasonCode.notDispatched ∈ statusReasons .notRun)
  · dsimp only
    split
    · exact (by decide : VerificationReasonCode.currentRunnerNotOwningEnvironment ∈ statusReasons .notRun)
    · cases hchosen : chooseHighestStatus id
          (applicableDecisions claim (observations.filter (observationAppliesToClaim claim))) with
      | none => exact selectionUnresolved_valid
      | some decision =>
          rcases mem_applicableDecisions.mp (chooseHighestStatus_spec hchosen).1 with ⟨gate, hgate, rfl⟩ | ⟨-, rfl⟩
          · exact observationDecision_valid (h gate (List.mem_filter.mp hgate).1)
          · exact selectionUnresolved_valid

theorem claimResult_contributing {claimId : Text} {decisions : List GateDecision} {coverageComplete : Bool} :
    (claimResult claimId decisions coverageComplete).contributingGateIds =
      uniqueSorted ((decisions.flatMap GateDecision.observations).map VerificationGateResult.gateId) := by
  unfold claimResult
  dsimp only
  split
  · rfl
  · split <;> rfl

theorem claimResult_valid {claimId : Text} {decisions : List GateDecision} {coverageComplete : Bool}
    (h : ∀ decision ∈ decisions, decision.toStatusDecision.Valid) :
    (claimResult claimId decisions coverageComplete).toStatusDecision.Valid ∧
      ((claimResult claimId decisions coverageComplete).status = .passed →
        (claimResult claimId decisions coverageComplete).coverageComplete) := by
  unfold claimResult
  dsimp only
  cases hchosen : chooseHighestStatus GateDecision.toStatusDecision decisions with
  | none => exact ⟨selectionUnresolved_valid, nofun⟩
  | some decisive =>
      dsimp only
      split
      · exact ⟨selectionUnresolved_valid, nofun⟩
      · rename_i hcovered
        exact ⟨h decisive (chooseHighestStatus_spec hchosen).1, by simpa using hcovered⟩

theorem aggregateClaim_valid {r : VerificationClaimResult} (hadmitted : Admitted input) (hclaim : claim ∈ input.claims)
    (h : aggregateClaim input claim = .ok r) : ValidClaimResult input.gateResults r := by
  have hvalid := hadmitted.claims claim hclaim
  have hpassed := aggregateClaim_passed h hvalid
  obtain ⟨coverageComplete, -, hresult⟩ := bind_eq_ok.mp h
  obtain rfl := Except.ok.inj hresult
  have hdecisions : ∀ decision ∈ gateDecisions claim input.gateResults, decision.toStatusDecision.Valid := by
    intro decision hdecision
    obtain ⟨gateId, -, rfl⟩ := List.mem_map.mp hdecision
    exact decideRequiredGate_valid fun gate hgate => (gate_checked (hadmitted.gates gate (mem_gateGroup.mp hgate).1)).2
  have hgates : ∀ gateId, gateId ∈ (claimResult claim.claimId (gateDecisions claim input.gateResults)
      coverageComplete).contributingGateIds ↔ ∃ gate ∈ input.gateResults, gate.gateId = gateId ∧
        gate.gateId ∈ claim.requiredGateIds ∧ observationAppliesToClaim claim gate := by
    intro gateId
    rw [claimResult_contributing, mem_uniqueSorted, List.mem_map]
    exact ⟨fun ⟨gate, hgate, hid⟩ => ⟨gate, (mem_observations.mp hgate).1, hid, (mem_observations.mp hgate).2⟩,
      fun ⟨gate, hgate, hid, happlies⟩ => ⟨gate, mem_observations.mpr ⟨hgate, happlies⟩, hid⟩⟩
  refine ⟨claimResult_claimId ▸ hvalid.claimId, (claimResult_valid hdecisions).1, ⟨fun gateId hgateId => ?_, ?_⟩,
    fun gateId hgateId => ?_, (claimResult_valid hdecisions).2, fun hstatus => ?_⟩
  · obtain ⟨gate, hgate, rfl, -⟩ := (hgates gateId).mp hgateId
    exact (gate_checked (hadmitted.gates gate hgate)).1
  · rw [claimResult_contributing]
    exact nodup_uniqueSorted _
  · obtain ⟨gate, hgate, rfl, -⟩ := (hgates gateId).mp hgateId
    exact List.mem_map_of_mem hgate
  · obtain ⟨gateId, hgateId⟩ := List.exists_mem_of_ne_nil _ hvalid.hasGates
    obtain ⟨gate, hgate⟩ := List.exists_mem_of_ne_nil _ ((hpassed.mp hstatus).1 gateId hgateId).observed
    obtain ⟨hgroup, happlies⟩ := List.mem_filter.mp hgate
    obtain ⟨hmem, rfl⟩ := mem_gateGroup.mp hgroup
    exact List.ne_nil_of_mem ((hgates _).mpr ⟨gate, hmem, rfl, hgateId, happlies⟩)

/-- The results of an aggregate are valid, each of a claim of its own, and so is its overall decision. -/
theorem aggregateVerificationClaims_valid {result : VerificationAggregateResult}
    (hadmitted : Admitted input) (h : aggregateVerificationClaims input = .ok result) :
    (∀ r ∈ result.claimResults, ValidClaimResult input.gateResults r) ∧
      (result.claimResults.map VerificationClaimResult.claimId).Nodup ∧
      (StatusDecision.mk result.overallStatus result.overallReasonCode).Valid := by
  obtain ⟨-, h⟩ := check_bind_eq_ok.mp h
  obtain ⟨claimResults, hresults, h⟩ := bind_eq_ok.mp h
  obtain rfl := Except.ok.inj h
  have hvalid : ∀ r ∈ sortBy VerificationClaimResult.claimId claimResults, ValidClaimResult input.gateResults r := by
    intro r hr
    obtain ⟨claim, hclaim, hcalled⟩ := exists_of_mem_mapM hresults (mem_sortBy.mp hr)
    exact aggregateClaim_valid hadmitted hclaim hcalled
  refine ⟨hvalid, ?_, ?_⟩
  · have hids : input.claims.map VerificationClaimDefinition.claimId = claimResults.map VerificationClaimResult.claimId := by
      rw [← List.forall₂_eq_eq_eq, List.forall₂_map_left_iff, List.forall₂_map_right_iff]
      refine (mapM_eq_ok.mp hresults).imp fun claim r hcall => ?_
      obtain ⟨_, -, hresult⟩ := bind_eq_ok.mp hcall
      rw [← Except.ok.inj hresult, claimResult_claimId]
    exact nodup_map_sortBy.mpr (hids ▸ hadmitted.claimIds)
  · unfold aggregateResult
    dsimp only
    cases hchosen : chooseHighestStatus VerificationClaimResult.toStatusDecision
        (sortBy VerificationClaimResult.claimId claimResults) with
    | none => exact selectionUnresolved_valid
    | some r => exact (hvalid r (chooseHighestStatus_spec hchosen).1).decision

end Writer

end SecPlatform.Assurance
