import SecPlatform.Compiler.IR.BuildFactDelta
import SecPlatform.Compiler.SemanticMutation.Lemmas.Canonical
import SecPlatform.Compiler.SemanticMutation.Preflight

/-!
# Requested mutations

Conditions of one id agree or are refused. Every requested operation is validated or has a diagnostic of its
own, a delta is accepted exactly when it has the effects of the operations, each of them once, and a plan of
verification when it has one verifier for each requirement. What is ready has passed all that is asked of the base.
-/

namespace SecPlatform.Compiler.SemanticMutation

open Contracts Semantics

/-! ## Merging conditions -/

/-- Two conditions of one id say the same. -/
def Agree (a b : SemanticMutationCondition) : Prop :=
  a.conditionId = b.conditionId → canonical a.toValue = canonical b.toValue

/-- The map of the loop after some conditions. -/
structure Merged (conditions : List SemanticMutationCondition) (byId : OrderedMap Text SemanticMutationCondition) :
    Prop where
  filed : ∀ condition ∈ conditions, ∃ kept, byId.get? condition.conditionId = some kept ∧
    canonical kept.toValue = canonical condition.toValue
  kept : ∀ key condition, byId.get? key = some condition → condition ∈ conditions ∧ condition.conditionId = key

/-- A turn of the loop. -/
def mergeNext (byId : OrderedMap Text SemanticMutationCondition) (condition : SemanticMutationCondition) :
    Except Text (OrderedMap Text SemanticMutationCondition) :=
  if (byId.get? condition.conditionId).any fun existing => !canonicalEquals existing.toValue condition.toValue then
    .error (Text.cat ["Condition id \"", condition.conditionId, "\" has conflicting definitions"])
  else .ok (byId.set condition.conditionId condition)

theorem mergeNext_eq_ok {byId byId' : OrderedMap Text SemanticMutationCondition} {condition : SemanticMutationCondition} :
    mergeNext byId condition = .ok byId' ↔
      (∀ existing, byId.get? condition.conditionId = some existing →
        canonical existing.toValue = canonical condition.toValue) ∧ byId.set condition.conditionId condition = byId' := by
  unfold mergeNext
  cases byId.get? condition.conditionId with
  | none => simp
  | some existing => by_cases h : canonical existing.toValue = canonical condition.toValue <;> simp [canonicalEquals, h]

theorem merged_nil : Merged [] .empty := ⟨by simp, by simp⟩

/-- A turn files its condition, which agrees with all before it. -/
theorem Merged.next {before : List SemanticMutationCondition} {byId byId' : OrderedMap Text SemanticMutationCondition}
    {condition : SemanticMutationCondition} (h : Merged before byId) (hnext : mergeNext byId condition = .ok byId') :
    (∀ b ∈ before, Agree b condition) ∧ Merged (before ++ [condition]) byId' := by
  obtain ⟨hsame, rfl⟩ := mergeNext_eq_ok.mp hnext
  have hagree : ∀ b ∈ before, Agree b condition := by
    intro b hb hid
    obtain ⟨kept, hkept, hcanonical⟩ := h.filed b hb
    rw [hid] at hkept
    exact hcanonical.symm.trans (hsame kept hkept)
  refine ⟨hagree, ⟨fun c hc => ?_, fun key c hc => ?_⟩⟩
  · rcases List.mem_append.mp hc with hc | hc
    · by_cases hid : condition.conditionId = c.conditionId
      · exact ⟨condition, by rw [hid, OrderedMap.get?_set_self], (hagree c hc hid.symm).symm⟩
      · obtain ⟨kept, hkept, hcanonical⟩ := h.filed c hc
        exact ⟨kept, by rw [OrderedMap.get?_set_of_ne _ _ hid, hkept], hcanonical⟩
    · obtain rfl := List.mem_singleton.mp hc
      exact ⟨c, OrderedMap.get?_set_self _ _ _, rfl⟩
  · by_cases hkey : condition.conditionId = key
    · rw [hkey, OrderedMap.get?_set_self] at hc
      obtain rfl := Option.some.inj hc
      exact ⟨by simp, hkey⟩
    · rw [OrderedMap.get?_set_of_ne _ _ hkey] at hc
      obtain ⟨hmem, hid⟩ := h.kept key c hc
      exact ⟨List.mem_append_left _ hmem, hid⟩

theorem merge_eq_ok {collections : List (List SemanticMutationCondition)} {merged : List SemanticMutationCondition} :
    mergeSemanticMutationConditions collections = .ok merged ↔
      ∃ byId, collections.flatten.foldlM mergeNext .empty = .ok byId ∧
        sortBy SemanticMutationCondition.conditionId byId.values = merged := by
  simp only [mergeSemanticMutationConditions, bind_eq_ok, pure_eq_ok, Except.ok.injEq]
  rfl

/-- Conditions merge exactly when those of one id agree. Then every condition is kept under its id in one of its
definitions, nothing else is, and the ids increase. -/
theorem mergeSemanticMutationConditions_spec (collections : List (List SemanticMutationCondition)) :
    ((∃ merged, mergeSemanticMutationConditions collections = .ok merged) ↔ collections.flatten.Pairwise Agree) ∧
      ∀ merged, mergeSemanticMutationConditions collections = .ok merged →
        merged.Pairwise (fun a b => a.conditionId < b.conditionId) ∧ (∀ c ∈ merged, c ∈ collections.flatten) ∧
          ∀ c ∈ collections.flatten, ∃ kept ∈ merged, kept.conditionId = c.conditionId ∧
            canonical kept.toValue = canonical c.toValue := by
  refine ⟨⟨?_, fun h => ?_⟩, ?_⟩
  · rintro ⟨merged, hmerged⟩
    obtain ⟨byId, hloop, -⟩ := merge_eq_ok.mp hmerged
    exact (foldlM_pairwise (P := Merged) (fun _ _ _ _ hbefore hnext => hbefore.next hnext) merged_nil hloop).1
  · obtain ⟨byId, hloop⟩ := foldlM_of_pairwise (f := mergeNext) (P := Merged)
      (fun _ _ _ _ hbefore hnext => hbefore.next hnext) (fun before byId c _ hbefore hagree => by
        refine ⟨_, mergeNext_eq_ok.mpr ⟨fun existing hexisting => ?_, rfl⟩⟩
        obtain ⟨hmem, hid⟩ := hbefore.kept _ _ hexisting
        exact hagree existing hmem hid) merged_nil h
    exact ⟨_, merge_eq_ok.mpr ⟨byId, hloop, rfl⟩⟩
  · intro merged hmerged
    obtain ⟨byId, hloop, rfl⟩ := merge_eq_ok.mp hmerged
    have hstate : Merged collections.flatten byId :=
      (foldlM_pairwise (P := Merged) (fun _ _ _ _ hbefore hnext => hbefore.next hnext) merged_nil hloop).2
    have hentries : ∀ entry ∈ byId.entries, SemanticMutationCondition.conditionId entry.2 = entry.1 := fun entry hentry =>
      (hstate.kept entry.1 entry.2 (OrderedMap.get?_eq_some.mpr hentry)).2
    refine ⟨sortBy_strict (byId.nodup_values_map hentries), fun c hc => ?_, fun c hc => ?_⟩
    · obtain ⟨key, hkey⟩ := OrderedMap.mem_values.mp (mem_sortBy.mp hc)
      exact (hstate.kept key c hkey).1
    · obtain ⟨kept, hkept, hcanonical⟩ := hstate.filed c hc
      exact ⟨kept, mem_sortBy.mpr (OrderedMap.mem_values.mpr ⟨_, hkept⟩), (hstate.kept _ _ hkept).2, hcanonical⟩

/-! ## Validating operations -/

section Operations

variable {snapshot : ValidatedEngineeringIRSnapshot} {authorization : SemanticMutationAuthorizationContent}

theorem tupleKey_eq (o : AddStateTransitionOperation) : tupleKey o = pairKey o ++ [0] ++ o.byOperation := by
  simp [tupleKey, pairKey, joinNull, Text.joinWith]

/-- What an operation that is validated promises: it is authorized, it moves the state, and the base graph has no
such transition. -/
structure Admissible (snapshot : ValidatedEngineeringIRSnapshot) (authorization : SemanticMutationAuthorizationContent)
    (v : ValidatedAddStateTransitionOperation) : Prop where
  state : contractStateId v.operation.contract.namespaceId v.operation.stateId = .ok v.stateEntityId
  performer : contractOperationId v.operation.contract.namespaceId v.operation.byOperation = .ok v.operationEntityId
  kind : v.operation.kind ∈ authorization.allowedOperationKinds
  target : v.stateEntityId ∈ authorization.allowedTargetEntityIds
  moves : v.operation.fromState ≠ v.operation.toState
  absent : valueFact snapshot.ir.facts v.stateEntityId .transitionsTo
    (transitionValue v.operationEntityId v.operation.fromState v.operation.toState) = none
  mutates : v.mutatesExistsInBase = (entityFact snapshot.ir.facts v.operationEntityId .mutates v.stateEntityId).isSome

theorem validateOperation_ok {operation : AddStateTransitionOperation} {stateEntityId operationEntityId : Text}
    {v : ValidatedAddStateTransitionOperation}
    (h : validateOperation snapshot authorization operation stateEntityId operationEntityId = .ok v)
    (hstate : contractStateId operation.contract.namespaceId operation.stateId = .ok stateEntityId)
    (hperformer : contractOperationId operation.contract.namespaceId operation.byOperation = .ok operationEntityId) :
    v.operation = operation ∧ Admissible snapshot authorization v := by
  unfold validateOperation at h
  obtain ⟨hallowed, h⟩ := check_bind_eq_ok.mp h
  obtain ⟨hentities, h⟩ := check_bind_eq_ok.mp h
  obtain ⟨habsent, h⟩ := check_bind_eq_ok.mp h
  dsimp only at h
  split at h
  · obtain ⟨-, h⟩ := check_bind_eq_ok.mp h
    obtain ⟨-, h⟩ := check_bind_eq_ok.mp h
    obtain rfl := Except.ok.inj h
    obtain ⟨hkind, htarget⟩ := require_eq_ok.mp hallowed
    exact ⟨rfl, hstate, hperformer, hkind, htarget, (require_eq_ok.mp hentities).2.2, require_eq_ok.mp habsent, rfl⟩
  · cases h

/-- The stages at which operations are rejected. -/
def OfOperations (diagnostic : SemanticMutationDiagnostic) : Prop :=
  diagnostic.stage = .sourceResolution ∨ diagnostic.stage = .transform

theorem validateOperation_error {operation : AddStateTransitionOperation} {stateEntityId operationEntityId : Text}
    {diagnostic : SemanticMutationDiagnostic}
    (h : validateOperation snapshot authorization operation stateEntityId operationEntityId = .error diagnostic) :
    OfOperations diagnostic := by
  unfold validateOperation at h
  rcases bind_eq_error.mp h with h | ⟨-, -, h⟩
  · exact .inl ((require_eq_error.mp h).2 ▸ rfl)
  rcases bind_eq_error.mp h with h | ⟨-, -, h⟩
  · exact .inl ((require_eq_error.mp h).2 ▸ rfl)
  rcases bind_eq_error.mp h with h | ⟨-, -, h⟩
  · exact .inr ((require_eq_error.mp h).2 ▸ rfl)
  dsimp only at h
  split at h
  · rcases bind_eq_error.mp h with h | ⟨-, -, h⟩
    · exact .inl ((require_eq_error.mp h).2 ▸ rfl)
    rcases bind_eq_error.mp h with h | ⟨-, -, h⟩
    · exact .inl ((require_eq_error.mp h).2 ▸ rfl)
    cases h
  · exact .inl (Except.error.inj h ▸ rfl)

/-- The loop after some operations. -/
structure Accounts (snapshot : ValidatedEngineeringIRSnapshot) (authorization : SemanticMutationAuthorizationContent)
    (operations : List AddStateTransitionOperation) (loop : OperationValidation) : Prop where
  counted : loop.validated.length + loop.diagnostics.length = operations.length
  admissible : ∀ v ∈ loop.validated, v.operation ∈ operations ∧ Admissible snapshot authorization v
  validated : loop.diagnostics = [] → loop.validated.map ValidatedAddStateTransitionOperation.operation = operations
  apart : loop.diagnostics = [] → operations.Pairwise fun a b => pairKey a ≠ pairKey b
  owned : loop.diagnostics = [] → ∀ o ∈ operations, (loop.owners.tuples.get? (tupleKey o)).isSome ∧
    (loop.owners.pairs.get? (pairKey o)).map Prod.snd = some o.byOperation

/-- An operation that conflicts with none before it asks for a move of its own. -/
theorem Accounts.apart_of_free {before : List AddStateTransitionOperation} {loop : OperationValidation}
    {operation : AddStateTransitionOperation} (h : Accounts snapshot authorization before loop)
    (hclean : loop.diagnostics = []) (hfree : conflictingOperation loop.owners operation = none) :
    ∀ o ∈ before, pairKey o ≠ pairKey operation := by
  intro o ho hkey
  obtain ⟨htuple, hpair⟩ := h.owned hclean o ho
  obtain ⟨owner, howner, hby⟩ := Option.map_eq_some_iff.mp hpair
  unfold conflictingOperation at hfree
  split at hfree
  next => cases hfree
  next hnone =>
    rw [Option.map_eq_none_iff, ← hkey, howner] at hfree
    have hsame : o.byOperation = operation.byOperation := by simpa [Option.filter, hby] using hfree
    rw [tupleKey_eq, hkey, hsame, ← tupleKey_eq, hnone] at htuple
    cases htuple

/-- The target and the performer of an operation have ids. -/
def Named (operation : AddStateTransitionOperation) : Prop :=
  (∃ id, contractStateId operation.contract.namespaceId operation.stateId = .ok id) ∧
    ∃ id, contractOperationId operation.contract.namespaceId operation.byOperation = .ok id

/-- A turn goes through when the operation has its ids, whatever came before. -/
theorem validateNext_isOk {loop : OperationValidation} {operation : AddStateTransitionOperation} :
    (∃ loop', validateNext snapshot authorization loop operation = .ok loop') ↔ Named operation := by
  unfold validateNext Named
  constructor
  · rintro ⟨loop', h⟩
    obtain ⟨stateEntityId, hstate, h⟩ := bind_eq_ok.mp h
    obtain ⟨operationEntityId, hperformer, -⟩ := bind_eq_ok.mp h
    exact ⟨⟨_, hstate⟩, ⟨_, hperformer⟩⟩
  · rintro ⟨⟨stateEntityId, hstate⟩, ⟨operationEntityId, hperformer⟩⟩
    rw [hstate, hperformer]
    simp only [ok_bind]
    split
    · exact ⟨_, rfl⟩
    · split <;> exact ⟨_, rfl⟩

/-- A turn adds a diagnostic, or validates an operation that conflicts with none before it. -/
theorem validateNext_cases {loop loop' : OperationValidation} {operation : AddStateTransitionOperation}
    (h : validateNext snapshot authorization loop operation = .ok loop') :
    (∃ diagnostic, OfOperations diagnostic ∧ loop'.diagnostics = loop.diagnostics ++ [diagnostic] ∧
        loop'.validated = loop.validated) ∨
      ∃ v, v.operation = operation ∧ Admissible snapshot authorization v ∧
        conflictingOperation loop.owners operation = none ∧
        loop' = ⟨⟨loop.owners.tuples.set (tupleKey operation) operation.operationId,
          loop.owners.pairs.set (pairKey operation) (operation.operationId, operation.byOperation)⟩,
          loop.validated ++ [v], loop.diagnostics⟩ := by
  unfold validateNext at h
  obtain ⟨stateEntityId, hstate, h⟩ := bind_eq_ok.mp h
  obtain ⟨operationEntityId, hperformer, h⟩ := bind_eq_ok.mp h
  split at h
  · obtain rfl := Except.ok.inj h
    exact .inl ⟨_, .inr rfl, rfl, rfl⟩
  · next hfree =>
    dsimp only at h
    split at h
    · next v hv =>
      obtain rfl := Except.ok.inj h
      obtain ⟨hoperation, hadmissible⟩ := validateOperation_ok hv hstate hperformer
      exact .inr ⟨v, hoperation, hadmissible, hfree, rfl⟩
    · next diagnostic hdiagnostic =>
      obtain rfl := Except.ok.inj h
      exact .inl ⟨_, validateOperation_error hdiagnostic, rfl, rfl⟩

theorem accounts_nil : Accounts snapshot authorization [] ⟨⟨.empty, .empty⟩, [], []⟩ :=
  ⟨rfl, by simp, fun _ => rfl, fun _ => .nil, by simp⟩

theorem Accounts.next {before : List AddStateTransitionOperation} {loop loop' : OperationValidation}
    {operation : AddStateTransitionOperation} (h : Accounts snapshot authorization before loop)
    (hnext : validateNext snapshot authorization loop operation = .ok loop') :
    Accounts snapshot authorization (before ++ [operation]) loop' := by
  obtain ⟨diagnostic, -, hdiagnostics, hvalidated⟩ | ⟨v, hoperation, hadmissible, hfree, rfl⟩ := validateNext_cases hnext
  · have hne : loop'.diagnostics ≠ [] := by simp [hdiagnostics]
    refine ⟨?_, fun w hw => ?_, fun hnil => absurd hnil hne, fun hnil => absurd hnil hne, fun hnil => absurd hnil hne⟩
    · simp [hdiagnostics, hvalidated, ← h.counted, Nat.add_assoc]
    · obtain ⟨hmem, hw⟩ := h.admissible w (hvalidated ▸ hw)
      exact ⟨List.mem_append_left _ hmem, hw⟩
  · refine ⟨?_, fun w hw => ?_, fun hclean => ?_, fun hclean => ?_, fun hclean o ho => ?_⟩
    · simp only [List.length_append, List.length_singleton, ← h.counted]
      omega
    · rcases List.mem_append.mp hw with hw | hw
      · obtain ⟨hmem, hw⟩ := h.admissible w hw
        exact ⟨List.mem_append_left _ hmem, hw⟩
      · obtain rfl := List.mem_singleton.mp hw
        exact ⟨by simp [hoperation], hadmissible⟩
    · simp [h.validated hclean, hoperation]
    · exact List.pairwise_append.mpr ⟨h.apart hclean, List.pairwise_singleton _ _, fun a ha b hb =>
        List.mem_singleton.mp hb ▸ h.apart_of_free hclean hfree a ha⟩
    · rcases List.mem_append.mp ho with ho | ho
      · have hpair := h.apart_of_free hclean hfree o ho
        obtain ⟨htuple, howner⟩ := h.owned hclean o ho
        refine ⟨?_, by rw [OrderedMap.get?_set_of_ne _ _ hpair.symm, howner]⟩
        by_cases hkey : tupleKey operation = tupleKey o
        · rw [hkey, OrderedMap.get?_set_self]
          rfl
        · rwa [OrderedMap.get?_set_of_ne _ _ hkey]
      · obtain rfl := List.mem_singleton.mp ho
        simp [OrderedMap.get?_set_self]

theorem validateNext_all_isOk {loop : OperationValidation} {operations : List AddStateTransitionOperation} :
    (∃ loop', operations.foldlM (validateNext snapshot authorization) loop = .ok loop') ↔ ∀ o ∈ operations, Named o := by
  constructor
  · rintro ⟨loop', h⟩
    refine foldlM_rule (P := fun before _ => ∀ o ∈ before, Named o) (fun before b o b' hbefore hturn => ?_) (by simp) h
    intro o' ho'
    rcases List.mem_append.mp ho' with ho' | ho'
    · exact hbefore o' ho'
    · rw [List.mem_singleton.mp ho']
      exact validateNext_isOk.mp ⟨b', hturn⟩
  · intro hnamed
    have hturn : ∀ (before : List AddStateTransitionOperation) (o : AddStateTransitionOperation) (b : OperationValidation),
        (∀ y ∈ before ++ [o], y ∈ operations) → True →
          ∃ b', validateNext snapshot authorization b o = .ok b' ∧ True := by
      intro before o b hmem _
      obtain ⟨b', hb⟩ := validateNext_isOk.mpr (hnamed o (hmem o (by simp)))
      exact ⟨b', hb, trivial⟩
    obtain ⟨loop', h, -⟩ := foldlM_succeeds (P := fun _ _ => True) (b := loop) hturn trivial
    exact ⟨loop', h⟩

/-- An operation is rejected where it is resolved or where it is transformed. -/
theorem ofOperations_of_validate {operations : List AddStateTransitionOperation}
    {validated : List ValidatedAddStateTransitionOperation} {diagnostics : List SemanticMutationDiagnostic}
    (h : validateSemanticMutationOperations snapshot operations authorization = .ok (validated, diagnostics)) :
    ∀ d ∈ diagnostics, OfOperations d := by
  obtain ⟨loop, hloop, h⟩ := bind_eq_ok.mp h
  obtain ⟨-, rfl⟩ := Prod.mk.inj (Except.ok.inj h)
  refine foldlM_invariant (P := fun loop => ∀ d ∈ loop.diagnostics, OfOperations d) (fun b o b' hb hturn => ?_)
    (by simp) hloop
  obtain ⟨diagnostic, hstage, hdiagnostics, -⟩ | ⟨v, -, -, -, rfl⟩ := validateNext_cases hturn
  · intro d hd
    rw [hdiagnostics] at hd
    rcases List.mem_append.mp hd with hd | hd
    · exact hb d hd
    · exact List.mem_singleton.mp hd ▸ hstage
  · exact hb

end Operations

/-- The keys of the facts that an operation may add. -/
def effectKeys (operation : ValidatedAddStateTransitionOperation) : List Text :=
  (operationSelectors operation).map factSelectorKey

theorem get?_foldl_set_same {κ α : Type} [DecidableEq κ] (keys : List κ) (value : α) (m : OrderedMap κ α) (key : κ) :
    (keys.foldl (fun m k => m.set k value) m).get? key = if key ∈ keys then some value else m.get? key := by
  induction keys generalizing m with
  | nil => simp
  | cons k keys ih =>
      rw [List.foldl_cons, ih, OrderedMap.get?_set]
      by_cases hkeys : key ∈ keys <;> by_cases hk : k = key <;> simp [hkeys, hk, eq_comm (a := key)]

/-- An effect is allowed for the sake of the last operation that has it. -/
theorem get?_expectedOperationSelectors (operations : List ValidatedAddStateTransitionOperation) (key : Text) :
    (expectedOperationSelectors operations).get? key = operations.reverse.find? fun o => decide (key ∈ effectKeys o) := by
  induction operations using List.reverseRecOn with
  | nil => rfl
  | append_singleton operations o ih =>
      have hturn : expectedOperationSelectors (operations ++ [o]) =
          (effectKeys o).foldl (fun m k => m.set k o) (expectedOperationSelectors operations) := by
        simp [expectedOperationSelectors, OrderedMap.ofList, effectKeys, List.foldl_map]
      rw [hturn, get?_foldl_set_same, ih]
      by_cases hkey : key ∈ effectKeys o <;> simp [hkey]

theorem mem_keys_expectedOperationSelectors {operations : List ValidatedAddStateTransitionOperation} {key : Text} :
    key ∈ (expectedOperationSelectors operations).keys ↔ ∃ o ∈ operations, key ∈ effectKeys o := by
  rw [OrderedMap.mem_keys, get?_expectedOperationSelectors, ← Option.isSome_iff_exists, List.find?_isSome]
  simp

/-- The allowlist is kept by a delta that only adds facts, each effect once and no other. -/
theorem allowlistDiagnostics_eq_nil {delta : FactDelta} {allowed : OrderedMap Text ValidatedAddStateTransitionOperation} :
    allowlistDiagnostics delta allowed = [] ↔ delta.removed = [] ∧ delta.changed = [] ∧
      (delta.added.map addedKey).Nodup ∧ ∀ key, key ∈ delta.added.map addedKey ↔ key ∈ allowed.keys := by
  have hsame : sortBy id (delta.added.map addedKey) = sortBy id allowed.keys ↔
      (delta.added.map addedKey).Nodup ∧ ∀ key, key ∈ delta.added.map addedKey ↔ key ∈ allowed.keys := by
    constructor
    · intro h
      have hsorted : (sortBy id allowed.keys).Perm (delta.added.map addedKey) := h ▸ sortBy_perm _
      have hperm : (delta.added.map addedKey).Perm allowed.keys := hsorted.symm.trans (sortBy_perm _)
      exact ⟨hperm.nodup_iff.mpr allowed.nodup_keys, fun key => hperm.mem_iff⟩
    · rintro ⟨hnodup, hmem⟩
      exact sortBy_id_eq_of_perm ((List.perm_ext_iff_of_nodup hnodup allowed.nodup_keys).mpr hmem)
  rw [← hsame]
  simp [allowlistDiagnostics]

theorem contractDiagnostics_eq_nil {allowed : OrderedMap Text ValidatedAddStateTransitionOperation} {fact : SemanticFact} :
    contractDiagnostics allowed fact = [] ↔
      ∀ o, allowed.get? (addedKey fact) = some o → assertionMatchesContract fact o := by
  unfold contractDiagnostics
  cases allowed.get? (addedKey fact) with
  | none => simp
  | some o => cases h : assertionMatchesContract fact o <;> simp [h]

theorem expectationFromFactDelta_adds [Sha256] {base staged : ValidatedEngineeringIRSnapshot} {delta : FactDelta}
    (hremoved : delta.removed = []) (hchanged : delta.changed = []) :
    expectationFromFactDelta delta base staged = .ok ⟨expectedFactsOf delta.added, [], []⟩ := by
  rw [expectationFromFactDelta, hremoved, hchanged]
  rfl

/-- What has no diagnostic passed every part of the match. -/
theorem matchSemanticMutationExpectation_eq_nil [Sha256] {base staged : ValidatedEngineeringIRSnapshot}
    {delta : FactDelta} {expectation : SemanticMutationExpectation}
    {operations : List ValidatedAddStateTransitionOperation} :
    matchSemanticMutationExpectation base staged delta expectation operations = .ok [] ↔
      canonical (entitiesValue base) = canonical (entitiesValue staged) ∧
      canonical (SemanticMutationExpectation.toValue ⟨expectedFactsOf delta.added, [], []⟩) =
        canonical expectation.toValue ∧
      allowlistDiagnostics delta (expectedOperationSelectors operations) = [] ∧
      ∀ fact ∈ delta.added, contractDiagnostics (expectedOperationSelectors operations) fact = [] := by
  constructor
  · intro h
    obtain ⟨actual, hactual, h⟩ := bind_eq_ok.mp h
    have hnil := Except.ok.inj h
    simp only [List.append_eq_nil_iff, List.flatMap_eq_nil_iff] at hnil
    obtain ⟨⟨⟨hentities, hexpected⟩, hallowed⟩, hcontract⟩ := hnil
    obtain ⟨hremoved, hchanged, -, -⟩ := allowlistDiagnostics_eq_nil.mp hallowed
    rw [expectationFromFactDelta_adds hremoved hchanged] at hactual
    obtain rfl := Except.ok.inj hactual
    exact ⟨by simpa [entityDriftDiagnostics, canonicalEquals] using hentities,
      by simpa [unexpectedDeltaDiagnostics, canonicalEquals] using hexpected, hallowed, hcontract⟩
  · rintro ⟨hentities, hexpected, hallowed, hcontract⟩
    obtain ⟨hremoved, hchanged, -, -⟩ := allowlistDiagnostics_eq_nil.mp hallowed
    have hfacts := List.flatMap_eq_nil_iff.mpr hcontract
    rw [matchSemanticMutationExpectation, expectationFromFactDelta_adds hremoved hchanged, ok_bind]
    simp [entityDriftDiagnostics, unexpectedDeltaDiagnostics, canonicalEquals, hentities, hexpected, hallowed, hfacts,
      pure_eq_ok]

/-- The allowlist of the operations. -/
theorem allowlist_expectedOperationSelectors {delta : FactDelta}
    {operations : List ValidatedAddStateTransitionOperation} :
    allowlistDiagnostics delta (expectedOperationSelectors operations) = [] ↔
      delta.removed = [] ∧ delta.changed = [] ∧ (delta.added.map addedKey).Nodup ∧
        ∀ key, key ∈ delta.added.map addedKey ↔ ∃ o ∈ operations, key ∈ effectKeys o := by
  simp only [allowlistDiagnostics_eq_nil, mem_keys_expectedOperationSelectors]

/-- A delta is accepted exactly when the entities stay, the caller expects just its facts, and it adds each effect of
the operations once, asserted as the last operation with that effect has it, and changes nothing else. -/
theorem matchSemanticMutationExpectation_accepts [Sha256] (base staged : ValidatedEngineeringIRSnapshot)
    (delta : FactDelta) (expectation : SemanticMutationExpectation)
    (operations : List ValidatedAddStateTransitionOperation) :
    matchSemanticMutationExpectation base staged delta expectation operations = .ok [] ↔
      canonical (entitiesValue base) = canonical (entitiesValue staged) ∧
      canonical (SemanticMutationExpectation.toValue ⟨expectedFactsOf delta.added, [], []⟩) =
        canonical expectation.toValue ∧
      delta.removed = [] ∧ delta.changed = [] ∧ (delta.added.map addedKey).Nodup ∧
      (∀ key, key ∈ delta.added.map addedKey ↔ ∃ o ∈ operations, key ∈ effectKeys o) ∧
      ∀ fact ∈ delta.added, ∃ o,
        operations.reverse.find? (fun o => decide (addedKey fact ∈ effectKeys o)) = some o ∧
          assertionMatchesContract fact o := by
  rw [matchSemanticMutationExpectation_eq_nil, allowlist_expectedOperationSelectors]
  constructor
  · rintro ⟨hentities, hexpected, ⟨hremoved, hchanged, hnodup, hmem⟩, hcontract⟩
    refine ⟨hentities, hexpected, hremoved, hchanged, hnodup, hmem, fun fact hfact => ?_⟩
    have hkey : addedKey fact ∈ (expectedOperationSelectors operations).keys :=
      mem_keys_expectedOperationSelectors.mpr ((hmem _).mp (List.mem_map_of_mem hfact))
    obtain ⟨o, ho⟩ := OrderedMap.mem_keys.mp hkey
    exact ⟨o, by rw [← get?_expectedOperationSelectors, ho], contractDiagnostics_eq_nil.mp (hcontract fact hfact) o ho⟩
  · rintro ⟨hentities, hexpected, hremoved, hchanged, hnodup, hmem, hcontract⟩
    refine ⟨hentities, hexpected, ⟨hremoved, hchanged, hnodup, hmem⟩, fun fact hfact => ?_⟩
    refine contractDiagnostics_eq_nil.mpr fun o ho => ?_
    obtain ⟨o', ho', hasserted⟩ := hcontract fact hfact
    rw [get?_expectedOperationSelectors, ho'] at ho
    exact Option.some.inj ho ▸ hasserted

/-- A mutation that is accepted leaves every fact of the base as it is, and what it adds are the effects of the
operations, each of them once. -/
theorem matchSemanticMutationExpectation_frames [Sha256] {before after : FactDeltaEndpointContext} {delta : FactDelta}
    {expectation : SemanticMutationExpectation} {operations : List ValidatedAddStateTransitionOperation}
    (hdelta : IR.buildFactDelta before after = .ok delta)
    (haccepted : matchSemanticMutationExpectation before.snapshot after.snapshot delta expectation operations = .ok []) :
    canonical (entitiesValue before.snapshot) = canonical (entitiesValue after.snapshot) ∧
      (∃ kept : List (SemanticFact × SemanticFact), before.snapshot.ir.facts = kept.map Prod.fst ∧
        after.snapshot.ir.facts.Perm (kept.map Prod.snd ++ delta.added) ∧
        ∀ p ∈ kept, p.1.id = p.2.id ∧ IR.sameFact p.1 p.2 = .ok none) ∧
      (delta.added.map addedKey).Nodup ∧
      ∀ key, key ∈ delta.added.map addedKey ↔ ∃ o ∈ operations, key ∈ effectKeys o := by
  obtain ⟨hentities, -, hallowed, -⟩ := matchSemanticMutationExpectation_eq_nil.mp haccepted
  obtain ⟨hremoved, hchanged, hnodup, hmem⟩ := allowlist_expectedOperationSelectors.mp hallowed
  refine ⟨hentities, ?_, hnodup, hmem⟩
  simp only [IR.buildFactDelta, bind_eq_ok, pure_eq_ok, Except.ok.injEq] at hdelta
  obtain ⟨-, -, -, -, -, -, -, -, -, -, -, -, diff, hdiff, -, -, rfl⟩ := hdelta
  exact mergeDiff_unchanged hdiff hremoved hchanged

section Example

/-! ### An example -/

local instance orderSha256 : Sha256 := ⟨fun _ => ⟨Text.ofString "sha256:" ++ List.replicate 64 (unit '0'), isDigest_zeros⟩⟩

/-- An order is paid. -/
def payOrder : ValidatedAddStateTransitionOperation :=
  ⟨⟨"operation:1", ⟨"shop", "order"⟩, "status", "open", "paid", "pay"⟩, "state:status", "operation:pay",
    "responsibility:order", [], true⟩

def orderPaid : SemanticFact :=
  ⟨"fact:paid", payOrder.stateEntityId, .transitionsTo, (transitionSelector payOrder).object,
    [⟨"assertion:paid", .authoritative, ⟨.ofNat 1, JsNumber.isFinite_ofNat 1⟩, [], [], "revision:2", none⟩]⟩

def orderContext (transactionId revision : Text) (facts : List SemanticFact)
    (h : IsValidated ⟨"2", "graph:shop", revision, revision, "app:shop", [], facts, []⟩) : FactDeltaEndpointContext :=
  ⟨transactionId, revision, revision, ⟨_, h⟩⟩

def openOrder : FactDeltaEndpointContext :=
  orderContext "tx:1" "revision:1" [] ⟨.nil, .nil, List.forall_mem_nil _, List.forall_mem_nil _⟩

def paidOrder : FactDeltaEndpointContext :=
  orderContext "tx:2" "revision:2" [orderPaid] ⟨.nil, List.pairwise_singleton _ _,
    List.forall_mem_singleton.mpr (List.pairwise_singleton _ _),
    List.forall_mem_singleton.mpr (List.forall_mem_singleton.mpr ⟨rfl, rfl⟩)⟩

/-- The transition is the only effect. -/
theorem matchSemanticMutationExpectation_frames_payOrder : ∃ delta,
    IR.buildFactDelta openOrder paidOrder = .ok delta ∧ delta.added = [orderPaid] ∧
      canonical (entitiesValue openOrder.snapshot) = canonical (entitiesValue paidOrder.snapshot) ∧
      (∃ kept : List (SemanticFact × SemanticFact), openOrder.snapshot.ir.facts = kept.map Prod.fst ∧
        paidOrder.snapshot.ir.facts.Perm (kept.map Prod.snd ++ delta.added) ∧
        ∀ p ∈ kept, p.1.id = p.2.id ∧ IR.sameFact p.1 p.2 = .ok none) ∧
      (delta.added.map addedKey).Nodup ∧
      ∀ key, key ∈ delta.added.map addedKey ↔ ∃ o ∈ [payOrder], key ∈ effectKeys o := by
  have hrun : ((IR.buildFactDelta openOrder paidOrder).toOption.any fun delta =>
      decide (delta.added = [orderPaid]) && delta.removed.isEmpty && delta.changed.isEmpty) = true := by decide +kernel
  cases hdelta : IR.buildFactDelta openOrder paidOrder with
  | error failure =>
      rw [hdelta] at hrun
      cases hrun
  | ok delta =>
      rw [hdelta] at hrun
      obtain ⟨⟨hadded, hremoved⟩, hchanged⟩ : (delta.added = [orderPaid] ∧ delta.removed = []) ∧ delta.changed = [] := by
        simpa [Except.toOption] using hrun
      have heffects : effectKeys payOrder = [addedKey orderPaid] := rfl
      have hopen : entitiesValue openOrder.snapshot = .arr [] := rfl
      have hpaid : entitiesValue paidOrder.snapshot = .arr [] := rfl
      have haccepted : matchSemanticMutationExpectation openOrder.snapshot paidOrder.snapshot delta
          ⟨expectedFactsOf [orderPaid], [], []⟩ [payOrder] = .ok [] := by
        refine matchSemanticMutationExpectation_eq_nil.mpr ⟨by rw [hopen, hpaid], by rw [hadded],
          allowlist_expectedOperationSelectors.mpr ⟨hremoved, hchanged, ?_, ?_⟩, fun fact hfact => ?_⟩
        · simp [hadded]
        · simp [hadded, heffects]
        · rw [hadded, List.mem_singleton] at hfact
          subst hfact
          refine contractDiagnostics_eq_nil.mpr fun o ho => ?_
          rw [get?_expectedOperationSelectors] at ho
          obtain rfl : payOrder = o := by simpa [heffects] using ho
          decide +kernel
      exact ⟨delta, rfl, hadded, matchSemanticMutationExpectation_frames hdelta haccepted⟩

end Example

/-! ## Planning the verification -/

/-- A sorted list repeats nothing when no two neighbours are equal. -/
theorem neighbours_differ_iff {keys : List Text} (h : keys.Pairwise (· ≤ ·)) :
    (∀ a b, (a, b) ∈ keys.zip keys.tail → ¬b = a) ↔ keys.Pairwise (· < ·) := by
  induction keys with
  | nil => simp
  | cons a keys ih =>
      cases keys with
      | nil => simp
      | cons b keys =>
          obtain ⟨hle, hsorted⟩ := List.pairwise_cons.mp h
          have hturn : (∀ x y, (x, y) ∈ (a :: b :: keys).zip (a :: b :: keys).tail → ¬y = x) ↔
              b ≠ a ∧ ∀ x y, (x, y) ∈ (b :: keys).zip (b :: keys).tail → ¬y = x := by
            simp only [List.tail_cons, List.zip_cons_cons, List.mem_cons, Prod.mk.injEq]
            constructor
            · intro hall
              exact ⟨hall a b (.inl ⟨rfl, rfl⟩), fun x y hxy => hall x y (.inr hxy)⟩
            · rintro ⟨hne, hall⟩ x y (⟨rfl, rfl⟩ | hxy)
              · exact hne
              · exact hall x y hxy
          rw [hturn, ih hsorted, List.pairwise_cons (a := a)]
          constructor
          · rintro ⟨hne, hstrict⟩
            have hab : a < b := lt_of_le_of_ne (hle b List.mem_cons_self) hne.symm
            refine ⟨fun c hc => ?_, hstrict⟩
            rcases List.mem_cons.mp hc with rfl | hc
            · exact hab
            · exact hab.trans ((List.pairwise_cons.mp hstrict).1 c hc)
          · rintro ⟨hlt, hstrict⟩
            exact ⟨(hlt b List.mem_cons_self).ne', hstrict⟩

theorem canonical_texts (values : List Text) : canonical (texts values) = texts values := by
  induction values with
  | nil => rfl
  | cons value values ih => simpa [texts, canonical, canonicalItems] using ih

theorem texts_inj {left right : List Text} : texts left = texts right ↔ left = right := by
  constructor
  · intro h
    have hstr : Function.Injective (Json.str : Text → Value) := by
      intro a b hab
      injection hab
    injection h with hitems
    exact List.map_injective_iff.mpr hstr hitems
  · rintro rfl
    rfl

/-- Keys that sort to some others, without neighbours that are equal, are those others, which increase. -/
theorem sorts_to_iff {keys expected : List Text} :
    (∀ a b, (a, b) ∈ (sortBy id keys).zip (sortBy id keys).tail → ¬b = a) ∧ sortBy id keys = expected ↔
      expected.Pairwise (· < ·) ∧ keys.Perm expected := by
  have hsorted : (sortBy id keys).Pairwise (· ≤ ·) := sortBy_pairwise keys
  rw [neighbours_differ_iff hsorted]
  constructor
  · rintro ⟨hstrict, rfl⟩
    exact ⟨hstrict, (sortBy_perm keys).symm⟩
  · rintro ⟨hstrict, hperm⟩
    have hsame : sortBy id keys = expected :=
      (sortBy_id_eq_of_perm hperm).trans (sortBy_of_pairwise (hstrict.imp le_of_lt))
    exact ⟨hsame ▸ hstrict, hsame⟩

def capabilityKey (capability : SemanticMutationVerificationCapability) : Text :=
  verificationRequirementKey capability.requirement

/-- A plan of verification is accepted exactly when it is written for this impact and these requirements, does not block
their uncertainties, and has one verifier for each requirement, which can run and is isolated. -/
theorem evaluateSemanticMutationVerificationPlanning_accepts [Sha256]
    (context : SemanticMutationVerificationPlanningContext) (impact : SemanticImpactPropagation)
    (requiredVerification : List VerificationRequirement) :
    evaluateSemanticMutationVerificationPlanning context impact requiredVerification = [] ↔
      planningContextLooksValid context ∧ context.impactRevision = impact.impactRevision ∧
      context.requiredVerificationDigest = semanticMutationRequiredVerificationDigest requiredVerification ∧
      context.planningRevision = planningRevision context (sortBy capabilityKey context.capabilities) ∧
      context.blocked = false ∧
      (requiredVerification.map verificationRequirementKey).Pairwise (· < ·) ∧
      (context.capabilities.map capabilityKey).Perm (requiredVerification.map verificationRequirementKey) ∧
      ∀ capability ∈ context.capabilities, capability.runnable ∧ capability.isolated := by
  have hkey : (fun c : SemanticMutationVerificationCapability => verificationRequirementKey c.requirement) =
      capabilityKey := rfl
  have hkeys : (sortBy capabilityKey context.capabilities).map capabilityKey =
      sortBy id (context.capabilities.map capabilityKey) := map_sortBy capabilityKey id context.capabilities
  cases hvalid : planningContextLooksValid context with
  | false => simp [evaluateSemanticMutationVerificationPlanning, hvalid]
  | true =>
      simp only [evaluateSemanticMutationVerificationPlanning, hvalid, hkey, hkeys, canonicalEquals, canonical_texts,
        texts_inj]
      simp [sorts_to_iff]
      tauto

/-! ## The preflight -/

theorem baseDiagnostics_eq_nil {request : SemanticMutationRequest} {endpoint : FactDeltaEndpointContext} :
    baseDiagnostics request endpoint = [] ↔ baseMatches request endpoint := by
  unfold baseDiagnostics
  split <;> simp_all

theorem baseDiagnostics_stage {request : SemanticMutationRequest} {endpoint : FactDeltaEndpointContext}
    {d : SemanticMutationDiagnostic} (h : d ∈ baseDiagnostics request endpoint) : d.stage = .base := by
  unfold baseDiagnostics at h
  split at h
  · cases h
  · rw [List.mem_singleton.mp h]
    rfl

section Preflight

variable [Sha256] {snapshot : ValidatedEngineeringIRSnapshot} {conditions : List SemanticMutationCondition} {code : Text}
  {stage : SemanticMutationDiagnosticStage}

theorem matchSemanticMutationConditions_eq_nil :
    matchSemanticMutationConditions snapshot conditions code stage = [] ↔
      ∀ condition ∈ conditions, (conditionMatches snapshot condition).1 := by
  simp [matchSemanticMutationConditions, List.flatMap_eq_nil_iff]

theorem matchSemanticMutationConditions_stage {d : SemanticMutationDiagnostic}
    (h : d ∈ matchSemanticMutationConditions snapshot conditions code stage) : d.stage = stage := by
  obtain ⟨condition, -, h⟩ := List.mem_flatMap.mp h
  dsimp only at h
  split at h
  · cases h
  · rw [List.mem_singleton.mp h]
    rfl

variable {request : SemanticMutationRequest} {authorization : SemanticMutationAuthorizationContent}
  {base : FactDeltaEndpointContext} {preconditions : List SemanticMutationCondition}

/-- A request is rejected for some diagnostic, at a stage of one of them. -/
theorem preflightDiagnostics_rejects {rejectedAt : Option SemanticMutationDiagnosticStage}
    {diagnostics : List SemanticMutationDiagnostic}
    (h : preflightDiagnostics request authorization base preconditions = .ok (rejectedAt, diagnostics)) :
    (rejectedAt = none ↔ diagnostics = []) ∧
      ∀ stage, rejectedAt = some stage → ∃ d ∈ diagnostics, d.stage = stage := by
  unfold preflightDiagnostics at h
  split at h
  · next d ds hbase =>
    obtain ⟨rfl, rfl⟩ := Prod.mk.inj (Except.ok.inj h)
    exact ⟨by simp, fun stage hstage => ⟨d, List.mem_cons_self,
      (baseDiagnostics_stage (hbase ▸ List.mem_cons_self)).trans (Option.some.inj hstage)⟩⟩
  split at h
  · next d ds hconditions =>
    obtain ⟨rfl, rfl⟩ := Prod.mk.inj (Except.ok.inj h)
    exact ⟨by simp, fun stage hstage => ⟨d, List.mem_cons_self,
      (matchSemanticMutationConditions_stage (hconditions ▸ List.mem_cons_self)).trans (Option.some.inj hstage)⟩⟩
  obtain ⟨result, hresult, h⟩ := bind_eq_ok.mp h
  obtain ⟨validated, ds⟩ := result
  have hstages := ofOperations_of_validate hresult
  dsimp only at h
  split at h
  · obtain ⟨rfl, rfl⟩ := Prod.mk.inj (Except.ok.inj h)
    exact ⟨by simp, by simp⟩
  next hsome =>
  have hne : ds ≠ [] := by simpa using hsome
  split at h
  · next hresolution =>
    obtain ⟨rfl, rfl⟩ := Prod.mk.inj (Except.ok.inj h)
    obtain ⟨d, hd, hstage⟩ := List.any_eq_true.mp hresolution
    exact ⟨by simp [hne], fun stage hs => ⟨d, hd, (of_decide_eq_true hstage).trans (Option.some.inj hs)⟩⟩
  · next hresolution =>
    obtain ⟨rfl, rfl⟩ := Prod.mk.inj (Except.ok.inj h)
    obtain ⟨d, hd⟩ := List.exists_mem_of_ne_nil _ hne
    have hnot : d.stage ≠ .sourceResolution := by
      intro hstage
      exact hresolution (List.any_eq_true.mpr ⟨d, hd, decide_eq_true hstage⟩)
    exact ⟨by simp [hne], fun stage hs =>
      ⟨d, hd, ((hstages d hd).resolve_left hnot).trans (Option.some.inj hs)⟩⟩

theorem preflightDiagnostics_ready :
    preflightDiagnostics request authorization base preconditions = .ok (none, []) ↔
      baseMatches request base ∧ (∀ condition ∈ preconditions, (conditionMatches base.snapshot condition).1) ∧
        ∃ validated, validateSemanticMutationOperations base.snapshot request.operations authorization =
          .ok (validated, []) := by
  have hconditions : matchSemanticMutationConditions base.snapshot preconditions "SEMANTIC-MUTATION-003" .precondition = [] ↔
      ∀ condition ∈ preconditions, (conditionMatches base.snapshot condition).1 := matchSemanticMutationConditions_eq_nil
  rw [← baseDiagnostics_eq_nil, ← hconditions]
  unfold preflightDiagnostics
  cases baseDiagnostics request base with
  | cons d ds => simp
  | nil =>
      cases matchSemanticMutationConditions base.snapshot preconditions "SEMANTIC-MUTATION-003" .precondition with
      | cons d ds => simp
      | nil =>
          simp only [true_and]
          constructor
          · intro h
            obtain ⟨result, hresult, h⟩ := bind_eq_ok.mp h
            obtain ⟨validated, ds⟩ := result
            dsimp only at h
            split at h
            · next hnil => exact ⟨validated, by rw [hresult, List.isEmpty_iff.mp hnil]⟩
            · split at h <;> cases h
          · rintro ⟨validated, hvalidated⟩
            rw [hvalidated]
            rfl

variable [EnglishLowerCase]

/-- A decision is about an input that was read; it has the canonical form of the diagnostics. -/
theorem preflightSemanticMutation_decided {input : SemanticMutationPreflightInput} {decision : PreflightDecision}
    (h : preflightSemanticMutation input = .ok (.decided decision)) :
    ∃ read diagnostics, readInput input = .ok read ∧
      preflightDiagnostics read.request.toSemanticMutationRequest
        read.authorization.toSemanticMutationAuthorizationContent input.base read.preconditions =
        .ok (decision.rejectedAt, diagnostics) ∧
      canonicalDiagnostics diagnostics = .ok decision.diagnostics := by
  unfold preflightSemanticMutation at h
  split at h
  · obtain ⟨canonical, -, h⟩ := bind_eq_ok.mp h
    obtain ⟨revision, -, h⟩ := bind_eq_ok.mp h
    cases h
  next read hread =>
  obtain ⟨result, hresult, h⟩ := bind_eq_ok.mp h
  obtain ⟨rejectedAt, diagnostics⟩ := result
  obtain ⟨canonical, hcanonical, h⟩ := bind_eq_ok.mp h
  cases h
  exact ⟨read, diagnostics, hread, mapError_eq_ok.mp hresult, hcanonical⟩

end Preflight

/-- A request is ready exactly when it is read, binds the base, its preconditions hold there and every operation is
validated. Otherwise a decision has diagnostics, and names the stage of one of them. -/
theorem preflightSemanticMutation_ready [Sha256] [EnglishLowerCase] (input : SemanticMutationPreflightInput) :
    ((∃ decision, preflightSemanticMutation input = .ok (.decided decision) ∧ decision.rejectedAt = none) ↔
      ∃ read validated, readInput input = .ok read ∧
        baseMatches read.request.toSemanticMutationRequest input.base ∧
        (∀ condition ∈ read.preconditions, (conditionMatches input.base.snapshot condition).1) ∧
        validateSemanticMutationOperations input.base.snapshot read.request.operations
          read.authorization.toSemanticMutationAuthorizationContent = .ok (validated, [])) ∧
      ∀ decision, preflightSemanticMutation input = .ok (.decided decision) →
        (decision.rejectedAt = none ↔ decision.diagnostics = []) ∧
          ∀ stage, decision.rejectedAt = some stage → ∃ d ∈ decision.diagnostics, d.stage = stage := by
  refine ⟨⟨?_, ?_⟩, fun decision h => ?_⟩
  · rintro ⟨decision, h, hnone⟩
    obtain ⟨read, diagnostics, hread, hdiagnostics, -⟩ := preflightSemanticMutation_decided h
    obtain rfl := (preflightDiagnostics_rejects hdiagnostics).1.mp hnone
    rw [hnone] at hdiagnostics
    obtain ⟨hbase, hconditions, validated, hvalidated⟩ := preflightDiagnostics_ready.mp hdiagnostics
    exact ⟨read, validated, hread, hbase, hconditions, hvalidated⟩
  · rintro ⟨read, validated, hread, hbase, hconditions, hvalidated⟩
    have hready := preflightDiagnostics_ready.mpr ⟨hbase, hconditions, validated, hvalidated⟩
    refine ⟨⟨none, read.request.requestId, read.request.requestRevision, read.authorization.authorizationRevision,
      endpointBase input.base, preflightRevision none read.request.requestRevision
        read.authorization.authorizationRevision (endpointBase input.base) [], []⟩, ?_, rfl⟩
    rw [preflightSemanticMutation, hread]
    simp only [hready, Except.mapError, ok_bind, canonicalDiagnostics_nil]
    rfl
  · obtain ⟨read, diagnostics, hread, hdiagnostics, hcanonical⟩ := preflightSemanticMutation_decided h
    obtain ⟨hnone, hstage⟩ := preflightDiagnostics_rejects hdiagnostics
    refine ⟨hnone.trans (canonicalDiagnostics_eq_nil hcanonical).symm, fun stage hs => ?_⟩
    obtain ⟨d, hd, hds⟩ := hstage stage hs
    obtain ⟨cs, hcs, hsorted⟩ := canonicalDiagnostics_eq_ok.mp hcanonical
    obtain ⟨d', hd', hcanonical'⟩ := exists_ok_of_mem_mapM hcs hd
    refine ⟨d', by rw [← hsorted]; exact mem_sortBy.mpr hd', ?_⟩
    rw [(canonicalDiagnostic_eq_ok.mp hcanonical').2]
    exact hds

end SecPlatform.Compiler.SemanticMutation
