import Mathlib.Data.List.Perm.Basic
import SecPlatform.Execution.ProviderSettlement
import SecPlatform.Library.Related

/-!
# The order of the lists of an operation is of no account

Budgets, requirements, bindings and settlements are sorted before they are digested and before they are compared, and
a list that names one of them twice is refused. The settlements of an operation are accepted when each of its
requirements is settled once, and nothing else is.
-/

namespace SecPlatform.Execution

open Contracts

/-! ## Lists in another order -/

section Sorting

variable {α : Type} {key : α → Text} {xs ys : List α}

/-- Entries without a repeated key sort to the same list. -/
theorem sortBy_eq_of_nodup (h : xs.Perm ys) (hnodup : (xs.map key).Nodup) : sortBy key xs = sortBy key ys :=
  sortBy_eq_of_perm h fun _ ha _ hb => List.inj_on_of_nodup_map hnodup ha hb

/-- A list that names an entry twice is refused. -/
theorem refused_of_not_nodup (hnodup : ¬(xs.map key).Nodup) {n : Nat} {e : Text} :
    (require ((sortBy key xs).length = n ∧ ((sortBy key xs).map key).Nodup) e : Checked Unit) = .error e :=
  if_neg fun h => hnodup (nodup_map_sortBy.mp h.2)

end Sorting

/-! ## Intents -/

/-- The requirements differ in the order of their kinds, if at all. -/
structure SameRequirement (requirement requirement' : OperationRequirement) : Prop where
  id : requirement.id = requirement'.id
  contract : requirement.contractDigest = requirement'.contractDigest
  effects : requirement.effectKinds.Perm requirement'.effectKinds
  failures : requirement.failureKinds.Perm requirement'.failureKinds

/-- The inputs differ in the order of their lists, if at all. -/
structure SameIntent (input input' : SemanticOperationIntentInput) : Prop where
  operation : input.operation = input'.operation
  intent : input.intentDigest = input'.intentDigest
  decision : input.decisionDigest = input'.decisionDigest
  budgets : input.aggregateBudgets.Perm input'.aggregateBudgets
  requirements : ∃ rs, List.Forall₂ SameRequirement input.requirements rs ∧ rs.Perm input'.requirements

theorem SameRequirement.symm {r r' : OperationRequirement} (h : SameRequirement r r') : SameRequirement r' r :=
  ⟨h.id.symm, h.contract.symm, h.effects.symm, h.failures.symm⟩

theorem SameIntent.symm {input input' : SemanticOperationIntentInput} (h : SameIntent input input') :
    SameIntent input' input := by
  obtain ⟨rs, hrs, hperm⟩ := h.requirements
  obtain ⟨rs', hrs', hperm'⟩ := List.perm_comp_forall₂ hperm.symm (hrs.flip.imp fun _ _ h => h.symm)
  exact ⟨h.operation.symm, h.intent.symm, h.decision.symm, h.budgets.symm, rs', hrs', hperm'⟩

theorem canonicalUniqueStrings_perm {values values' : List Text} (h : values.Perm values') (label : Text) :
    canonicalUniqueStrings values label = canonicalUniqueStrings values' label := by
  rw [canonicalUniqueStrings, canonicalUniqueStrings, sortBy_id_eq_of_perm h]

theorem canonicalRequirement_same {r r' : OperationRequirement} (h : SameRequirement r r') :
    canonicalRequirement r = canonicalRequirement r' := by
  unfold canonicalRequirement
  rw [h.id, h.contract]
  simp only [canonicalUniqueStrings_perm h.effects, canonicalUniqueStrings_perm h.failures]

theorem canonicalOperationBudget_resource {budget : OperationBudgetInput} {canonical : OperationBudget}
    (h : canonicalOperationBudget budget = .ok canonical) : canonical.resource = budget.resource := by
  obtain ⟨-, h⟩ := check_bind_eq_ok.mp h
  split at h
  · cases h
    rfl
  · cases h

/-- Budgets that are accepted in one order are the same in every order. -/
theorem sortedBudgets_perm {budgets budgets' : List OperationBudgetInput} (h : budgets.Perm budgets')
    {canonical : List OperationBudget}
    (hcanonical : (sortBy OperationBudgetInput.resource budgets).mapM canonicalOperationBudget = .ok canonical)
    (hnodup : (canonical.map OperationBudget.resource).Nodup) :
    sortBy OperationBudgetInput.resource budgets = sortBy OperationBudgetInput.resource budgets' := by
  have hkeys : canonical.map OperationBudget.resource =
      (sortBy OperationBudgetInput.resource budgets).map OperationBudgetInput.resource := by
    rw [← List.forall₂_eq_eq_eq, List.forall₂_map_left_iff, List.forall₂_map_right_iff]
    exact (mapM_eq_ok.mp hcanonical).flip.imp fun _ _ h => canonicalOperationBudget_resource h
  exact sortBy_eq_of_nodup h (nodup_map_sortBy.mp (hkeys ▸ hnodup))

/-- Requirements that are accepted in one order are accepted in every order, and sort to the same list. -/
theorem sortedRequirements_perm {reqs reqs' rs canonical : List OperationRequirement}
    (hsame : List.Forall₂ SameRequirement reqs rs) (hperm : rs.Perm reqs')
    (hcanonical : reqs.mapM canonicalRequirement = .ok canonical) :
    ∃ canonical', reqs'.mapM canonicalRequirement = .ok canonical' ∧ canonical.Perm canonical' := by
  have hrs : List.Forall₂ (fun c r => canonicalRequirement r = .ok c) canonical rs := by
    refine (forall₂_trans (mapM_eq_ok.mp hcanonical).flip hsame).imp fun c r ⟨r₀, hc, hr⟩ => ?_
    rw [← canonicalRequirement_same hr]
    exact hc
  obtain ⟨canonical', hcanonical', hperm'⟩ := List.perm_comp_forall₂ hperm.symm hrs.flip
  exact ⟨canonical', mapM_eq_ok.mpr hcanonical', hperm'.symm⟩

section Operations

variable [Sha256]

theorem compileSemanticOperationIntent_of_same {input input' : SemanticOperationIntentInput} (hsame : SameIntent input input')
    {intent : SemanticOperationIntent} (h : compileSemanticOperationIntent input = .ok intent) :
    compileSemanticOperationIntent input' = .ok intent := by
  unfold compileSemanticOperationIntent at h ⊢
  rw [← hsame.operation, ← hsame.intent, ← hsame.decision]
  obtain ⟨operation, hoperation, h⟩ := bind_eq_ok.mp h
  obtain ⟨budgets, hbudgets, h⟩ := bind_eq_ok.mp h
  obtain ⟨hunique, h⟩ := check_bind_eq_ok.mp h
  obtain ⟨canonical, hcanonical, h⟩ := bind_eq_ok.mp h
  obtain ⟨hrequirements, h⟩ := check_bind_eq_ok.mp h
  obtain ⟨rs, hrs, hperm⟩ := hsame.requirements
  obtain ⟨canonical', hcanonical', hperm'⟩ := sortedRequirements_perm hrs hperm hcanonical
  have hbudgets' := sortedBudgets_perm hsame.budgets hbudgets (require_eq_ok.mp hunique)
  have hsorted := sortBy_eq_of_nodup hperm' (nodup_map_sortBy.mp (require_eq_ok.mp hrequirements).2)
  refine bind_eq_ok.mpr ⟨operation, hoperation, bind_eq_ok.mpr ⟨budgets, hbudgets' ▸ hbudgets, ?_⟩⟩
  refine check_bind_eq_ok.mpr ⟨hunique, bind_eq_ok.mpr ⟨canonical', hcanonical', ?_⟩⟩
  dsimp only at h ⊢
  rw [← hsorted]
  exact check_bind_eq_ok.mpr ⟨hrequirements, h⟩

theorem bindSemanticOperation_perm (tokens : RecoveryTokens) (plan : Object SemanticOperationPlan)
    {bindings bindings' : List CapabilityBinding} (h : bindings.Perm bindings') :
    bindSemanticOperation tokens plan bindings = bindSemanticOperation tokens plan bindings' := by
  unfold bindSemanticOperation
  by_cases hnodup : (bindings.map CapabilityBinding.requirementId).Nodup
  · rw [sortBy_eq_of_nodup h hnodup]
  · have hnodup' : ¬(bindings'.map CapabilityBinding.requirementId).Nodup :=
      fun h' => hnodup ((h.map _).nodup_iff.mpr h')
    dsimp only
    rw [refused_of_not_nodup hnodup, refused_of_not_nodup hnodup']
    rfl

theorem compileProviderSettlementSet_perm (tokens : RecoveryTokens) (operation : BoundSemanticOperation)
    {settlements settlements' : List ProviderSettlementReceipt} (h : settlements.Perm settlements') :
    compileProviderSettlementSet tokens operation settlements = compileProviderSettlementSet tokens operation settlements' := by
  unfold compileProviderSettlementSet
  by_cases hnodup : (settlements.map fun settlement => settlement.requirementId).Nodup
  · rw [sortBy_eq_of_nodup h hnodup]
  · have hnodup' : ¬(settlements'.map fun settlement => settlement.requirementId).Nodup :=
      fun h' => hnodup ((h.map _).nodup_iff.mpr h')
    dsimp only
    rw [refused_of_not_nodup hnodup, refused_of_not_nodup hnodup']
    rfl

/-! ## Bound operations -/

/-- A plan that the foundation has compiled. -/
def Compiled (plan : SemanticOperationPlan) : Prop :=
  ∃ contexts deadline input attempt, compileSemanticOperationPlan contexts deadline input attempt = .ok plan

theorem Compiled.requirements {plan : SemanticOperationPlan} (h : Compiled plan) :
    plan.execution.requirements.Pairwise fun a b => a.id < b.id := by
  obtain ⟨contexts, deadline, input, attempt, h⟩ := h
  unfold compileSemanticOperationPlan at h
  obtain ⟨deadline, -, h⟩ := bind_eq_ok.mp h
  obtain ⟨-, h⟩ := check_bind_eq_ok.mp h
  obtain ⟨intent, hintent, h⟩ := bind_eq_ok.mp h
  cases h
  unfold compileSemanticOperationIntent at hintent
  obtain ⟨operation, -, hintent⟩ := bind_eq_ok.mp hintent
  obtain ⟨budgets, -, hintent⟩ := bind_eq_ok.mp hintent
  obtain ⟨-, hintent⟩ := check_bind_eq_ok.mp hintent
  obtain ⟨canonical, -, hintent⟩ := bind_eq_ok.mp hintent
  obtain ⟨hunique, hintent⟩ := check_bind_eq_ok.mp hintent
  obtain ⟨intentDigest, -, hintent⟩ := bind_eq_ok.mp hintent
  obtain ⟨decisionDigest, -, hintent⟩ := bind_eq_ok.mp hintent
  cases hintent
  have hdistinct := List.pairwise_map.mp (require_eq_ok.mp hunique).2
  exact ((sortBy_pairwise canonical).and hdistinct).imp fun h => lt_of_le_of_ne h.1 h.2

variable {tokens : RecoveryTokens} {operation : BoundSemanticOperation}

/-- An operation that has been bound: its bindings stand beside its requirements, and it is its own projection. -/
structure WellBound (tokens : RecoveryTokens) (operation : BoundSemanticOperation) : Prop where
  projection : assertSemanticOperationProjection tokens operation = .ok ()
  sorted : operation.plan.value.execution.requirements.Pairwise fun a b => a.id < b.id
  aligned : operation.bindings.map CapabilityBinding.requirementId =
    operation.plan.value.execution.requirements.map OperationRequirement.id

theorem assertBound_mem {bindings : List CapabilityBinding} {requirement : OperationRequirement}
    (h : assertBound bindings requirement = .ok ()) : requirement.id ∈ bindings.map CapabilityBinding.requirementId := by
  unfold assertBound at h
  split at h
  · cases h
  · rename_i binding hfind
    exact List.mem_map.mpr ⟨binding, List.mem_of_find?_eq_some hfind, by simpa using List.find?_some hfind⟩

theorem wellBound_of_bind {plan : Object SemanticOperationPlan} {bindings : List CapabilityBinding}
    (hcompiled : Compiled plan.value) (h : bindSemanticOperation tokens plan bindings = .ok operation) :
    WellBound tokens operation := by
  have hrebound : bindSemanticOperation tokens plan (sortBy CapabilityBinding.requirementId bindings) = .ok operation := by
    rw [bindSemanticOperation_perm tokens plan (sortBy_perm bindings)]
    exact h
  have hsorted := hcompiled.requirements
  unfold bindSemanticOperation at h
  obtain ⟨-, h⟩ := check_bind_eq_ok.mp h
  obtain ⟨hexact, h⟩ := check_bind_eq_ok.mp h
  obtain ⟨hbound, h⟩ := check_bind_eq_ok.mp h
  cases h
  obtain ⟨hlength, hnodup⟩ := require_eq_ok.mp hexact
  refine ⟨?_, hsorted, ?_⟩
  · rw [assertSemanticOperationProjection, hrebound]
    exact require_eq_ok.mpr ⟨rfl, rfl⟩
  · have hids : (plan.value.execution.requirements.map OperationRequirement.id).Pairwise (· < ·) :=
      List.pairwise_map.mpr hsorted
    have hsub : plan.value.execution.requirements.map OperationRequirement.id ⊆
        (sortBy CapabilityBinding.requirementId bindings).map CapabilityBinding.requirementId := by
      intro id hid
      obtain ⟨requirement, hrequirement, rfl⟩ := List.mem_map.mp hid
      exact assertBound_mem (forM_eq_ok.mp hbound requirement hrequirement)
    have hperm := (List.subperm_of_subset (hids.imp ne_of_lt) hsub).perm_of_length_le (by simpa using hlength.le)
    exact (hperm.eq_of_pairwise (fun _ _ _ _ => le_antisymm) (hids.imp le_of_lt)
      (List.pairwise_map.mpr (sortBy_pairwise _))).symm

/-! ## Settlements -/

/-- The settlement is one of this requirement, of its binding and of the attempt. -/
structure Settles (operation : BoundSemanticOperation) (requirement : OperationRequirement)
    (settlement : ProviderSettlementReceipt) : Prop where
  requirementId : settlement.requirementId = requirement.id
  contract : settlement.contractDigest = requirement.contractDigest
  binding : ∃ binding ∈ operation.bindings, binding.requirementId = requirement.id ∧
    settlement.bindingDigest = binding.bindingDigest
  identity : settlement.operationIdentityDigest = operation.plan.value.identity.identityDigest
  plan : settlement.executionPlanDigest = operation.plan.value.execution.executionPlanDigest
  attempt : settlement.boundAttemptDigest = operation.boundAttemptDigest

/-- There is one settlement for each requirement and no other, and each is one of its requirement. -/
structure ExactlySettled (operation : BoundSemanticOperation) (settlements : List ProviderSettlementReceipt) : Prop where
  covers : (settlements.map fun settlement => settlement.requirementId).Perm
    (operation.plan.value.execution.requirements.map OperationRequirement.id)
  settles : ∀ settlement ∈ settlements, ∃ requirement ∈ operation.plan.value.execution.requirements,
    Settles operation requirement settlement

/-- A receipt as it is issued: under the digest of its fields. -/
def OwnDigest (settlement : ProviderSettlementReceipt) : Prop :=
  settlement.providerReceiptDigest = providerReceiptDigest settlement.toProviderSettlementFields

theorem assertProviderSettlementReceipt_ok {settlement : ProviderSettlementReceipt} :
    assertProviderSettlementReceipt settlement = .ok () ↔ OwnDigest settlement := by
  rw [assertProviderSettlementReceipt, require_eq_ok]
  constructor
  · exact fun h => h.2.symm
  · intro h
    refine ⟨?_, h.symm⟩
    rw [h]
    exact (Sha256.rawSha256 _).2

variable {settlements : List ProviderSettlementReceipt} {requirement : OperationRequirement} {index : Nat}

/-- What the turn of a requirement finds at its place. -/
theorem assertSettlement_ok : assertSettlement operation settlements requirement index = .ok () ↔
    ∃ settlement binding, settlements[index]? = some settlement ∧ operation.bindings[index]? = some binding ∧
      OwnDigest settlement ∧ settlement.requirementId = requirement.id ∧ binding.requirementId = requirement.id ∧
      settlement.bindingDigest = binding.bindingDigest ∧ settlement.contractDigest = requirement.contractDigest ∧
      settlement.operationIdentityDigest = operation.plan.value.identity.identityDigest ∧
      settlement.executionPlanDigest = operation.plan.value.execution.executionPlanDigest ∧
      settlement.boundAttemptDigest = operation.boundAttemptDigest := by
  unfold assertSettlement
  cases hsettlement : settlements[index]? with
  | none => simp
  | some settlement =>
      dsimp only
      rw [check_bind_eq_ok, assertProviderSettlementReceipt_ok, require_eq_ok]
      cases hbinding : operation.bindings[index]? with
      | none => simp
      | some binding => simp [and_assoc, and_left_comm]

theorem settles_of_assertSettlement (hrequirement : requirement ∈ operation.plan.value.execution.requirements)
    (h : assertSettlement operation settlements requirement index = .ok ()) {settlement : ProviderSettlementReceipt}
    (hindex : settlements[index]? = some settlement) : OwnDigest settlement ∧
      ∃ requirement ∈ operation.plan.value.execution.requirements, Settles operation requirement settlement := by
  obtain ⟨found, binding, hfound, hbinding, hdigest, hid, hbound, hbindingDigest, hcontract, hidentity, hplan, hattempt⟩ :=
    assertSettlement_ok.mp h
  obtain rfl := Option.some.inj (hindex.symm.trans hfound)
  exact ⟨hdigest, requirement, hrequirement,
    ⟨hid, hcontract, ⟨binding, List.mem_of_getElem? hbinding, hbound, hbindingDigest⟩, hidentity, hplan, hattempt⟩⟩

/-- The turn of a requirement goes through when the settlement at its place is one of it. -/
theorem assertSettlement_of_settles (hbound : WellBound tokens operation)
    (hrequirement : operation.plan.value.execution.requirements[index]? = some requirement)
    {settlement : ProviderSettlementReceipt} (hindex : settlements[index]? = some settlement)
    (hdigest : OwnDigest settlement) (h : Settles operation requirement settlement) :
    assertSettlement operation settlements requirement index = .ok () := by
  obtain ⟨named, hnamed, hname, hbindingDigest⟩ := h.binding
  have hids : (operation.bindings.map CapabilityBinding.requirementId)[index]? = some requirement.id := by
    rw [hbound.aligned, List.getElem?_map, hrequirement, Option.map_some]
  rw [List.getElem?_map] at hids
  obtain ⟨binding, hbinding, hid⟩ := Option.map_eq_some_iff.mp hids
  have hnodup : (operation.bindings.map CapabilityBinding.requirementId).Nodup := by
    rw [hbound.aligned]
    exact (List.pairwise_map.mpr hbound.sorted).imp ne_of_lt
  obtain rfl := List.inj_on_of_nodup_map hnodup hnamed (List.mem_of_getElem? hbinding) (hname.trans hid.symm)
  exact assertSettlement_ok.mpr ⟨settlement, named, hindex, hbinding, hdigest, h.requirementId, hname, hbindingDigest,
    h.contract, h.identity, h.plan, h.attempt⟩

/-- The settlements of a bound operation are accepted exactly when they settle it exactly, each under its own digest. -/
theorem compileProviderSettlementSet_succeeds (hbound : WellBound tokens operation) :
    Succeeds (compileProviderSettlementSet tokens operation settlements) ↔
      (∀ settlement ∈ settlements, OwnDigest settlement) ∧ ExactlySettled operation settlements := by
  have hids : (operation.plan.value.execution.requirements.map OperationRequirement.id).Pairwise (· < ·) :=
    List.pairwise_map.mpr hbound.sorted
  constructor
  · rintro ⟨set, h⟩
    unfold compileProviderSettlementSet at h
    obtain ⟨-, h⟩ := check_bind_eq_ok.mp h
    obtain ⟨hexact, h⟩ := check_bind_eq_ok.mp h
    obtain ⟨hloop, -⟩ := check_bind_eq_ok.mp h
    obtain ⟨hlength, hnodup⟩ := require_eq_ok.mp hexact
    have hall : ∀ settlement ∈ settlements, OwnDigest settlement ∧
        ∃ requirement ∈ operation.plan.value.execution.requirements, Settles operation requirement settlement := by
      intro settlement hsettlement
      have hsorted : settlement ∈ sortBy (fun settlement => settlement.requirementId) settlements :=
        mem_sortBy.mpr hsettlement
      obtain ⟨index, hindex⟩ := List.mem_iff_getElem?.mp hsorted
      have hlt : index < operation.plan.value.execution.requirements.length :=
        hlength ▸ (List.getElem?_eq_some_iff.mp hindex).1
      have hturn := forM_eq_ok.mp hloop (_, index)
        (List.mem_zipIdx_iff_getElem?.mpr (List.getElem?_eq_getElem hlt))
      exact settles_of_assertSettlement (List.getElem_mem hlt) hturn hindex
    refine ⟨fun s hs => (hall s hs).1, ?_, fun s hs => (hall s hs).2⟩
    have hsub : (settlements.map fun settlement => settlement.requirementId) ⊆
        operation.plan.value.execution.requirements.map OperationRequirement.id := by
      intro id hid
      obtain ⟨settlement, hsettlement, rfl⟩ := List.mem_map.mp hid
      obtain ⟨-, requirement, hrequirement, hsettles⟩ := hall settlement hsettlement
      exact List.mem_map.mpr ⟨requirement, hrequirement, hsettles.requirementId.symm⟩
    exact (List.subperm_of_subset (nodup_map_sortBy.mp hnodup) hsub).perm_of_length_le (by simpa using hlength.ge)
  · rintro ⟨hdigests, hexact⟩
    have hnodup : (settlements.map fun settlement => settlement.requirementId).Nodup :=
      hexact.covers.nodup_iff.mpr (hids.imp ne_of_lt)
    have hlength : settlements.length = operation.plan.value.execution.requirements.length := by
      simpa using hexact.covers.length_eq
    have haligned : (sortBy (fun settlement => settlement.requirementId) settlements).map
        (fun settlement => settlement.requirementId) =
          operation.plan.value.execution.requirements.map OperationRequirement.id :=
      (((sortBy_perm settlements).map _).trans hexact.covers).eq_of_pairwise (fun _ _ _ _ => le_antisymm)
        (List.pairwise_map.mpr (sortBy_pairwise _)) (hids.imp le_of_lt)
    have hloop : (operation.plan.value.execution.requirements.zipIdx.forM fun entry =>
        assertSettlement operation (sortBy (fun settlement => settlement.requirementId) settlements) entry.1 entry.2) =
          .ok () := by
      refine forM_eq_ok.mpr fun ⟨requirement, index⟩ hentry => ?_
      have hrequirement := List.mem_zipIdx_iff_getElem?.mp hentry
      have hplace := congrArg (fun ids => ids[index]?) haligned
      simp only [List.getElem?_map] at hplace
      rw [hrequirement, Option.map_some] at hplace
      obtain ⟨settlement, hindex, hid⟩ := Option.map_eq_some_iff.mp hplace
      have hmem := mem_sortBy.mp (List.mem_of_getElem? hindex)
      obtain ⟨named, hnamed, hsettles⟩ := hexact.settles settlement hmem
      obtain rfl := List.inj_on_of_nodup_map (hids.imp ne_of_lt) hnamed (List.mem_of_getElem? hrequirement)
        (hsettles.requirementId.symm.trans hid)
      exact assertSettlement_of_settles hbound hrequirement hindex (hdigests settlement hmem) hsettles
    refine ⟨providerSettlementSet operation (sortBy (fun settlement => settlement.requirementId) settlements), ?_⟩
    unfold compileProviderSettlementSet
    refine check_bind_eq_ok.mpr ⟨hbound.projection, check_bind_eq_ok.mpr ⟨require_eq_ok.mpr ⟨?_, ?_⟩, ?_⟩⟩
    · rw [length_sortBy]
      exact hlength
    · exact nodup_map_sortBy.mpr hnodup
    · exact check_bind_eq_ok.mpr ⟨hloop, rfl⟩

omit tokens operation settlements requirement index in
/-- Lists in another order compile to the same intent, bind to the same operation and settle to the same set, or are
refused as well. A list of settlements is accepted exactly when it settles the bound operation exactly, each receipt under
its own digest. -/
theorem semanticOperation_order :
    (∀ input input', SameIntent input input' → ∀ intent,
      compileSemanticOperationIntent input = .ok intent ↔ compileSemanticOperationIntent input' = .ok intent) ∧
    (∀ tokens plan bindings bindings', bindings.Perm bindings' →
      bindSemanticOperation tokens plan bindings = bindSemanticOperation tokens plan bindings') ∧
    (∀ tokens operation settlements settlements', settlements.Perm settlements' →
      compileProviderSettlementSet tokens operation settlements =
        compileProviderSettlementSet tokens operation settlements') ∧
    ∀ tokens plan bindings operation, Compiled plan.value → bindSemanticOperation tokens plan bindings = .ok operation →
      ∀ settlements, Succeeds (compileProviderSettlementSet tokens operation settlements) ↔
        (∀ settlement ∈ settlements, OwnDigest settlement) ∧ ExactlySettled operation settlements := by
  refine ⟨fun input input' hsame intent => ?_, fun tokens plan _ _ => bindSemanticOperation_perm tokens plan,
    fun tokens operation _ _ => compileProviderSettlementSet_perm tokens operation, fun tokens plan bindings operation
      hcompiled hbind settlements => ?_⟩
  · exact ⟨compileSemanticOperationIntent_of_same hsame, compileSemanticOperationIntent_of_same hsame.symm⟩
  · exact compileProviderSettlementSet_succeeds (wellBound_of_bind hcompiled hbind)

end Operations

/-! ## One requirement, settled once -/

section Example

def zeroDigest : Digest := ⟨Text.ofString "sha256:" ++ List.replicate 64 (unit '0'), isDigest_zeros⟩

def oneDigest : Digest := ⟨Text.ofString "sha256:" ++ List.replicate 64 (unit '1'), by decide⟩

/-- Every text has one digest. -/
local instance zeroSha256 : Sha256 := ⟨fun _ => zeroDigest⟩

def readRequirement : OperationRequirement := ⟨"git.read", zeroDigest.val, [Text.ofString "process"], []⟩

def readInput : SemanticOperationIntentInput := ⟨"compute.run", zeroDigest.val, zeroDigest.val, [], [readRequirement]⟩

def readContext : Object SemanticOperationAttemptContext := ⟨0, ⟨zeroDigest.val, none, none, zeroDigest.val⟩⟩

def readPlan : Object SemanticOperationPlan := ⟨1, {
  identity := ⟨"compute.run", zeroDigest.val, zeroDigest.val, zeroDigest.val⟩
  execution := ⟨zeroDigest.val, [], [readRequirement], zeroDigest.val⟩
  attempt := ⟨zeroDigest.val, zeroDigest.val, zeroDigest.val, none, none, zeroDigest.val, 1, zeroDigest.val⟩ }⟩

def readBinding : CapabilityBinding := ⟨"git.read", zeroDigest.val, zeroDigest.val, zeroDigest.val⟩

def readOperation : BoundSemanticOperation := ⟨readPlan, [readBinding], zeroDigest.val, zeroDigest.val⟩

def planTokens : RecoveryTokens := { RecoveryTokens.initial with nextRef := 2, compiledPlans := [readPlan] }

/-- A settlement of the requirement under this digest. -/
def readSettlement (digest : Digest) : ProviderSettlementReceipt :=
  ⟨⟨"git.read", zeroDigest.val, zeroDigest.val, zeroDigest.val, zeroDigest.val, zeroDigest.val, .settled,
    zeroDigest.val⟩, digest.val⟩

theorem compiled_readPlan : Compiled readPlan.value :=
  ⟨[readContext], .ofNat 1, readInput, readContext, by decide⟩

theorem bind_readPlan : bindSemanticOperation planTokens readPlan [readBinding] = .ok readOperation := by
  decide

theorem exactlySettled_read (digest : Digest) : ExactlySettled readOperation [readSettlement digest] where
  covers := .refl _
  settles := List.forall_mem_singleton.mpr ⟨readRequirement, List.mem_singleton_self _,
    ⟨rfl, rfl, ⟨readBinding, List.mem_singleton_self _, rfl, rfl⟩, rfl, rfl, rfl⟩⟩

theorem semanticOperation_order_read :
    bindSemanticOperation planTokens readPlan [readBinding] = .ok readOperation ∧
    Succeeds (compileProviderSettlementSet planTokens readOperation [readSettlement zeroDigest]) := by
  refine ⟨bind_readPlan, (semanticOperation_order.2.2.2 _ _ _ _ compiled_readPlan bind_readPlan _).mpr ⟨?_, ?_⟩⟩
  · exact List.forall_mem_singleton.mpr rfl
  · exact exactlySettled_read zeroDigest

/-- A receipt that is bound exactly but stands under the digest of something else is refused, and of two requirements that
are refused the first one is named. -/
theorem compileProviderSettlementSet_foreignDigest :
    ExactlySettled readOperation [readSettlement oneDigest] ∧
    ¬Succeeds (compileProviderSettlementSet planTokens readOperation [readSettlement oneDigest]) ∧
    ∃ requirement requirement' : OperationRequirement,
      compileSemanticOperationIntent { readInput with requirements := [requirement, requirement'] } ≠
        compileSemanticOperationIntent { readInput with requirements := [requirement', requirement] } := by
  refine ⟨exactlySettled_read oneDigest, ?_, ⟨"git.read", [], [], []⟩, ⟨"git.write", [], [], []⟩, by decide⟩
  rw [compileProviderSettlementSet_succeeds (wellBound_of_bind compiled_readPlan bind_readPlan)]
  intro h
  have hdigest : oneDigest.val = zeroDigest.val := h.1 _ (List.mem_singleton_self _)
  exact absurd hdigest (by decide)

end Example

end SecPlatform.Execution
