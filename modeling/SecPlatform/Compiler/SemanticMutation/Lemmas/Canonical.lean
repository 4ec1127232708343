import SecPlatform.Compiler.SemanticMutation.Canonical
import SecPlatform.Contracts.Lemmas.CanonicalEncoding

/-!
# Canonical forms taken again

Diagnostics and required verification that are canonical stay as they are, and equal canonical values of
an endpoint are equal endpoints.
-/

namespace SecPlatform.Compiler.SemanticMutation

open Contracts Semantics

/-! ## Equality -/

@[simp] theorem canonicalEquals_self (value : Value) : canonicalEquals value value = true := by simp [canonicalEquals]

theorem canonicalEquals_base {left right : SemanticMutationBase} :
    canonicalEquals left.toValue right.toValue = true ↔ left = right := by
  constructor
  · intro h
    have hkeys : ∀ b : SemanticMutationBase, ∃ ms, b.toValue = .obj ms ∧ (ms.map Prod.fst).Nodup ∧
        Json.get? "transactionId" ms = some (.str b.transactionId) ∧
        Json.get? "inputRevision" ms = some (.str b.inputRevision) ∧
        Json.get? "semanticRevision" ms = some (.str b.semanticRevision) :=
      fun b => ⟨_, rfl, (by decide : (["transactionId", "inputRevision", "semanticRevision"].map Text.ofString).Nodup),
        rfl, rfl, rfl⟩
    obtain ⟨ms, hl, hm, hl1, hl2, hl3⟩ := hkeys left
    obtain ⟨ns, hr, hn, hr1, hr2, hr3⟩ := hkeys right
    have heq := get?_eq_of_canonical_eq hm hn (hl ▸ hr ▸ of_decide_eq_true h)
    have h1 := heq "transactionId"
    have h2 := heq "inputRevision"
    have h3 := heq "semanticRevision"
    rw [hl1, hr1] at h1
    rw [hl2, hr2] at h2
    rw [hl3, hr3] at h3
    simp only [Option.map_some, canonical, Option.some.injEq, Json.str.injEq] at h1 h2 h3
    obtain ⟨t, i, s⟩ := left
    cases h1; cases h2; cases h3
    rfl
  · rintro rfl
    exact canonicalEquals_self _

/-! ## Diagnostics -/

section Diagnostics

variable [EnglishLowerCase]

omit [EnglishLowerCase] in
theorem canonicalDiagnostic_eq_ok {d d' : SemanticMutationDiagnostic} :
    canonicalDiagnostic d = .ok d' ↔
      (∀ v ∈ d.details, isFinite v) ∧ d' = { d with details := d.details.map canonical } := by
  obtain ⟨origin, code, stage, message, operationId, conditionId, relativePath, details⟩ := d
  cases details with
  | none =>
      simp only [canonicalDiagnostic, Except.ok.injEq, Option.map_none]
      exact ⟨fun h => ⟨by simp, h.symm⟩, fun h => h.2.symm⟩
  | some v =>
      by_cases hv : isFinite v
      · simp only [canonicalDiagnostic, canonicalJson, if_pos hv, Except.ok.injEq, Option.map_some]
        exact ⟨fun h => ⟨by simpa using hv, h.symm⟩, fun h => h.2.symm⟩
      · rw [canonicalDiagnostic]
        simp only [canonicalJson, if_neg hv, reduceCtorEq, false_iff, not_and]
        exact fun h => absurd (h v rfl) hv

omit [EnglishLowerCase] in
/-- The canonical form of a diagnostic is its own canonical form. -/
theorem canonicalDiagnostic_again {d d' : SemanticMutationDiagnostic} (h : canonicalDiagnostic d = .ok d') :
    canonicalDiagnostic d' = .ok d' := by
  obtain ⟨hfinite, rfl⟩ := canonicalDiagnostic_eq_ok.mp h
  refine canonicalDiagnostic_eq_ok.mpr ⟨fun v hv => ?_, ?_⟩
  · obtain ⟨u, hu, rfl⟩ := Option.mem_map.mp hv
    exact isFinite_canonical u (hfinite u hu)
  · cases d.details <;> simp [canonical_canonical]

/-- What a canonical list of diagnostics is made of. -/
theorem canonicalDiagnostics_eq_ok {ds ds' : List SemanticMutationDiagnostic} :
    canonicalDiagnostics ds = .ok ds' ↔ ∃ cs, ds.mapM canonicalDiagnostic = .ok cs ∧ sortBy diagnosticKey cs = ds' := by
  simp only [canonicalDiagnostics, bind_eq_ok, pure_eq_ok, Except.ok.injEq]

/-- A canonical diagnostic stems from one of the list. -/
theorem mem_canonicalDiagnostics {ds ds' : List SemanticMutationDiagnostic} (h : canonicalDiagnostics ds = .ok ds')
    {d' : SemanticMutationDiagnostic} (hd' : d' ∈ ds') : ∃ d ∈ ds, canonicalDiagnostic d = .ok d' := by
  obtain ⟨cs, hcs, rfl⟩ := canonicalDiagnostics_eq_ok.mp h
  exact exists_of_mem_mapM hcs (mem_sortBy.mp hd')

/-- A canonical list of diagnostics is its own canonical form. -/
theorem canonicalDiagnostics_again {ds ds' : List SemanticMutationDiagnostic} (h : canonicalDiagnostics ds = .ok ds') :
    canonicalDiagnostics ds' = .ok ds' := by
  have hself : ∀ d' ∈ ds', canonicalDiagnostic d' = .ok d' := by
    intro d' hd'
    obtain ⟨d, -, hd⟩ := mem_canonicalDiagnostics h hd'
    exact canonicalDiagnostic_again hd
  obtain ⟨cs, -, rfl⟩ := canonicalDiagnostics_eq_ok.mp h
  exact canonicalDiagnostics_eq_ok.mpr ⟨_, mapM_eq_ok.mpr (List.forall₂_same.mpr hself), sortBy_sortBy cs⟩

theorem canonicalDiagnostics_eq_nil {ds ds' : List SemanticMutationDiagnostic} (h : canonicalDiagnostics ds = .ok ds') :
    ds' = [] ↔ ds = [] := by
  obtain ⟨cs, hcs, rfl⟩ := canonicalDiagnostics_eq_ok.mp h
  rw [← List.length_eq_zero_iff, ← List.length_eq_zero_iff, length_sortBy, (mapM_eq_ok.mp hcs).length_eq]

@[simp] theorem canonicalDiagnostics_nil : canonicalDiagnostics [] = .ok [] := rfl

end Diagnostics

end SecPlatform.Compiler.SemanticMutation
