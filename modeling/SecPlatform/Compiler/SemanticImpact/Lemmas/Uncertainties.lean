import SecPlatform.Compiler.SemanticImpact.BuildImpactPropagation

/-!
# Noted uncertainties

An uncertainty once noted stays noted: what is added later can only improve its seeds and its path. Its
identity tells the basis, the entity and the fact that it is about.
-/

namespace SecPlatform.Compiler.SemanticImpact

open Contracts Semantics IR

/-! ## Identities -/

/-- An uncertainty is about an entity, and about a fact unless a mapping is missing. -/
structure WellPlaced (value : ImpactUncertainty) : Prop where
  boundary : value.boundaryEntityId.isSome
  fact : value.factId.isSome ↔ value.reasonCode ≠ .verificationMappingMissing

theorem ofNat_BASIS_RANK_injective {a b : ImpactBasis} (h : Text.ofNat (BASIS_RANK a) = Text.ofNat (BASIS_RANK b)) :
    a = b := by
  revert h
  cases a <;> cases b <;> decide

theorem reasonCode_toText_injective {a b : ImpactUncertaintyReason} (h : a.toText = b.toText) : a = b := by
  revert h
  cases a <;> cases b <;> decide

/-- What the identity of an uncertainty tells. -/
theorem eq_of_uncertaintyIdentity_eq {a b : ImpactUncertainty} (ha : WellPlaced a) (hb : WellPlaced b)
    (h : uncertaintyIdentity a = uncertaintyIdentity b) :
    a.basis = b.basis ∧ a.reasonCode = b.reasonCode ∧ a.boundaryEntityId = b.boundaryEntityId ∧
      a.factId = b.factId := by
  simp only [uncertaintyIdentity, List.cons.injEq, true_and, and_true] at h
  obtain ⟨hbasis, hreason, hboundary, hfact, -⟩ := h
  have hreason : a.reasonCode = b.reasonCode := reasonCode_toText_injective hreason
  refine ⟨ofNat_BASIS_RANK_injective hbasis, hreason, ?_, ?_⟩
  · obtain ⟨x, hx⟩ := Option.isSome_iff_exists.mp ha.boundary
    obtain ⟨y, hy⟩ := Option.isSome_iff_exists.mp hb.boundary
    simpa [hx, hy] using hboundary
  · have hsome : a.factId.isSome ↔ b.factId.isSome := by rw [ha.fact, hb.fact, hreason]
    cases hx : a.factId with
    | none =>
        cases hy : b.factId with
        | none => rfl
        | some y => simp [hx, hy] at hsome
    | some x =>
        cases hy : b.factId with
        | none => simp [hx, hy] at hsome
        | some y => simpa [hx, hy] using hfact

/-! ## Collections -/

/-- Every uncertainty is filed under its identity. -/
def Filed (uncertainties : Uncertainties) : Prop :=
  ∀ key draft, uncertainties.get? key = some draft →
    uncertaintyIdentity draft.toImpactUncertainty = key ∧ WellPlaced draft.toImpactUncertainty

/-- An uncertainty with the identity of this one is in the collection. -/
def Noted (uncertainties : Uncertainties) (value : ImpactUncertainty) : Prop :=
  uncertaintyIdentity value ∈ uncertainties.keys

theorem filed_empty : Filed .empty := by
  intro key draft h
  cases h

/-- What is in the collection after an uncertainty is added. -/
theorem noted_addUncertainty {uncertainties : Uncertainties} {draft : UncertaintyDraft} {value : ImpactUncertainty} :
    Noted (addUncertainty uncertainties draft) value ↔
      uncertaintyIdentity value = uncertaintyIdentity draft.toImpactUncertainty ∨ Noted uncertainties value := by
  simp only [Noted, addUncertainty]
  split
  · exact OrderedMap.mem_keys_set
  · rename_i existing hexisting
    have hkey : uncertaintyIdentity draft.toImpactUncertainty ∈ uncertainties.keys :=
      OrderedMap.mem_keys.mpr ⟨existing, hexisting⟩
    split
    · exact OrderedMap.mem_keys_set
    split
    · exact ⟨.inr, fun h => h.elim (fun h => h ▸ hkey) id⟩
    · exact OrderedMap.mem_keys_set

theorem Noted.add {uncertainties : Uncertainties} {value : ImpactUncertainty} (h : Noted uncertainties value)
    (draft : UncertaintyDraft) : Noted (addUncertainty uncertainties draft) value := noted_addUncertainty.mpr (.inr h)

theorem Filed.set {uncertainties : Uncertainties} (h : Filed uncertainties) {draft : UncertaintyDraft} {key : List Text}
    (hkey : uncertaintyIdentity draft.toImpactUncertainty = key) (hplaced : WellPlaced draft.toImpactUncertainty) :
    Filed (uncertainties.set key draft) := by
  intro other value hget
  rw [OrderedMap.get?_set] at hget
  split at hget
  · rename_i hother
    cases hget
    exact ⟨hkey.trans hother, hplaced⟩
  · exact h other value hget

/-- Adding an uncertainty keeps the collection filed. -/
theorem Filed.add {uncertainties : Uncertainties} (h : Filed uncertainties) {draft : UncertaintyDraft}
    (hplaced : WellPlaced draft.toImpactUncertainty) : Filed (addUncertainty uncertainties draft) := by
  simp only [addUncertainty]
  split
  · exact h.set rfl ⟨hplaced.1, hplaced.2⟩
  · rename_i existing hexisting
    obtain ⟨hkey, hexistingPlaced⟩ := h _ existing hexisting
    split
    · exact h.set rfl ⟨hplaced.1, hplaced.2⟩
    split
    · exact h
    · exact h.set hkey ⟨hexistingPlaced.1, hexistingPlaced.2⟩

/-- What is noted is in the collection, with the basis, the entity and the fact it is about. -/
theorem Noted.exists_mem {uncertainties : Uncertainties} (hfiled : Filed uncertainties) {value : ImpactUncertainty}
    (hplaced : WellPlaced value) (h : Noted uncertainties value) :
    ∃ draft ∈ uncertainties.values, draft.basis = value.basis ∧
      draft.boundaryEntityId = value.boundaryEntityId ∧ draft.factId = value.factId := by
  obtain ⟨draft, hget⟩ := OrderedMap.mem_keys.mp h
  obtain ⟨hkey, hdraft⟩ := hfiled _ draft hget
  obtain ⟨hbasis, -, hboundary, hfact⟩ := eq_of_uncertaintyIdentity_eq hdraft hplaced hkey
  exact ⟨draft, OrderedMap.mem_values.mpr ⟨_, hget⟩, hbasis, hboundary, hfact⟩

/-! ## Facts left uncertain -/

/-- An uncertainty about the fact is noted at the entity, whatever its reason. -/
def FactNoted (uncertainties : Uncertainties) (basis : ImpactBasis) (entityId : Text) (fact : SemanticFact) : Prop :=
  ∃ value : ImpactUncertainty, WellPlaced value ∧ value.basis = basis ∧ value.boundaryEntityId = some entityId ∧
    value.factId = some fact.id ∧ Noted uncertainties value

theorem FactNoted.mono {uncertainties after : Uncertainties} {basis : ImpactBasis} {entityId : Text} {fact : SemanticFact}
    (h : FactNoted uncertainties basis entityId fact) (hnoted : ∀ value, Noted uncertainties value → Noted after value) :
    FactNoted after basis entityId fact := by
  obtain ⟨value, hplaced, hbasis, hboundary, hfact, hvalue⟩ := h
  exact ⟨value, hplaced, hbasis, hboundary, hfact, hnoted value hvalue⟩

theorem factNoted_addUncertainty {uncertainties : Uncertainties} {draft : UncertaintyDraft} {fact : SemanticFact}
    {entityId : Text} (hplaced : WellPlaced draft.toImpactUncertainty) (hboundary : draft.boundaryEntityId = some entityId)
    (hfact : draft.factId = some fact.id) :
    FactNoted (addUncertainty uncertainties draft) draft.basis entityId fact :=
  ⟨draft.toImpactUncertainty, hplaced, rfl, hboundary, hfact, noted_addUncertainty.mpr (.inl rfl)⟩

end SecPlatform.Compiler.SemanticImpact
