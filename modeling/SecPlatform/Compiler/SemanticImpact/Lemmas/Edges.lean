import Mathlib.Data.List.Nodup
import SecPlatform.Compiler.SemanticImpact.BuildImpactPropagation
import SecPlatform.Compiler.SemanticImpact.Lemmas.Uncertainties

/-!
# Facts at an entity

The scan of the facts at an entity: each of them gives the steps it leads to, is noted as uncertain, or stops.
-/

namespace SecPlatform.Compiler.SemanticImpact

open Contracts Semantics IR

/-! ## Scans -/

/-- What a scan of facts at the entity of a state makes of the candidates and the uncertainties. The facts lead
to targets as `leads` says and may stop as `stops` says. -/
structure Scans (basis : ImpactBasis) (state : ReachState) (leads : SemanticFact → Text → Prop)
    (stops : SemanticFact → Prop) (scan : EdgeScan) (facts : List SemanticFact) (after : EdgeScan) : Prop where
  noted : ∀ value, Noted scan.uncertainties value → Noted after.uncertainties value
  filed : Filed scan.uncertainties → Filed after.uncertainties
  kept : ∀ step ∈ scan.candidates, step ∈ after.candidates
  sound : ∀ step ∈ after.candidates, step ∈ scan.candidates ∨ ∃ fact ∈ facts, leads fact step.toEntityId
  complete : ∀ fact ∈ facts, ∀ target, leads fact target → ∃ step ∈ after.candidates, step.toEntityId = target
  accounted : ∀ fact ∈ facts, (∃ target, leads fact target) ∨
    FactNoted after.uncertainties basis state.entityId fact ∨ stops fact

namespace Scans

variable {basis : ImpactBasis} {state : ReachState} {leads : SemanticFact → Text → Prop} {stops : SemanticFact → Prop}
  {scan : EdgeScan} {fact : SemanticFact}

theorem nil : Scans basis state leads stops scan [] scan where
  noted := fun _ h => h
  filed := id
  kept := fun _ h => h
  sound := fun _ h => .inl h
  complete := nofun
  accounted := nofun

theorem append {between after : EdgeScan} {facts facts' : List SemanticFact}
    (h : Scans basis state leads stops scan facts between) (h' : Scans basis state leads stops between facts' after) :
    Scans basis state leads stops scan (facts ++ facts') after where
  noted := fun value hvalue => h'.noted value (h.noted value hvalue)
  filed := fun hfiled => h'.filed (h.filed hfiled)
  kept := fun step hstep => h'.kept step (h.kept step hstep)
  sound := by
    intro step hstep
    rcases h'.sound step hstep with hstep | ⟨fact, hfact, hleads⟩
    · rcases h.sound step hstep with hstep | ⟨fact, hfact, hleads⟩
      · exact .inl hstep
      · exact .inr ⟨fact, List.mem_append_left _ hfact, hleads⟩
    · exact .inr ⟨fact, List.mem_append_right _ hfact, hleads⟩
  complete := by
    intro fact hfact target hleads
    rcases List.mem_append.mp hfact with hfact | hfact
    · obtain ⟨step, hstep, htarget⟩ := h.complete fact hfact target hleads
      exact ⟨step, h'.kept step hstep, htarget⟩
    · exact h'.complete fact hfact target hleads
  accounted := by
    intro fact hfact
    rcases List.mem_append.mp hfact with hfact | hfact
    · rcases h.accounted fact hfact with hleads | hnoted | hstops
      · exact .inl hleads
      · exact .inr (.inl (hnoted.mono h'.noted))
      · exact .inr (.inr hstops)
    · exact h'.accounted fact hfact

/-- A fact that is uncertain leads nowhere. -/
theorem uncertain {draft : UncertaintyDraft} (hplaced : WellPlaced draft.toImpactUncertainty) (hbasis : draft.basis = basis)
    (hboundary : draft.boundaryEntityId = some state.entityId) (hfact : draft.factId = some fact.id)
    (hleads : ∀ target, ¬leads fact target) : Scans basis state leads stops scan [fact] (scan.uncertain draft) where
  noted := fun _ h => h.add draft
  filed := fun h => h.add hplaced
  kept := fun _ h => h
  sound := fun _ h => .inl h
  complete := by
    intro other hother target h
    cases List.mem_singleton.mp hother
    exact absurd h (hleads target)
  accounted := by
    intro other hother
    cases List.mem_singleton.mp hother
    subst hbasis
    exact .inr (.inl (factNoted_addUncertainty hplaced hboundary hfact))

/-- A fact with a step leads to the end of the step alone. -/
theorem candidate {step : ImpactPathStep} (hleads : ∀ target, leads fact target ↔ step.toEntityId = target) :
    Scans basis state leads stops scan [fact] (scan.candidate step) where
  noted := fun _ h => h
  filed := id
  kept := fun _ h => List.mem_append_left _ h
  sound := by
    intro other hother
    rcases List.mem_append.mp hother with hother | hother
    · exact .inl hother
    · cases List.mem_singleton.mp hother
      exact .inr ⟨fact, List.mem_singleton_self _, (hleads _).mpr rfl⟩
  complete := by
    intro other hother target h
    cases List.mem_singleton.mp hother
    exact ⟨step, List.mem_append_right _ (List.mem_singleton_self _), (hleads target).mp h⟩
  accounted := by
    intro other hother
    cases List.mem_singleton.mp hother
    exact .inl ⟨step.toEntityId, (hleads _).mpr rfl⟩

theorem stopped (hstops : stops fact) (hleads : ∀ target, ¬leads fact target) :
    Scans basis state leads stops scan [fact] scan where
  noted := fun _ h => h
  filed := id
  kept := fun _ h => h
  sound := fun _ h => .inl h
  complete := by
    intro other hother target h
    cases List.mem_singleton.mp hother
    exact absurd h (hleads target)
  accounted := by
    intro other hother
    cases List.mem_singleton.mp hother
    exact .inr (.inr hstops)

end Scans

/-! ## Single facts -/

section Facts

variable {basis : ImpactBasis} {state : ReachState} {scan : EdgeScan} {fact : SemanticFact}

theorem not_edgeRule {direction : ImpactDirection} {rule : ImpactPropagationRule}
    (hrule : IMPACT_PROPAGATION_RULES fact.predicate = rule) (h : ∀ id, rule ≠ .edge direction id) :
    ¬EdgeRule direction fact := by
  rintro ⟨id, hid⟩
  exact h id (hrule.symm.trans hid)

theorem wellPlaced_stateUncertainty {reasonCode : ImpactUncertaintyReason}
    (h : reasonCode ≠ .verificationMappingMissing) :
    WellPlaced (stateUncertainty basis reasonCode state fact).toImpactUncertainty :=
  ⟨rfl, fun _ => h, fun _ => rfl⟩

theorem wellPlaced_nonDefiniteUncertainty {boundaryEntityId : Text} {seedIds : List Text} {canonicalSeedId : Text}
    {canonicalPath : List ImpactPathStep} : WellPlaced
      (nonDefiniteUncertainty basis fact boundaryEntityId seedIds canonicalSeedId canonicalPath).toImpactUncertainty :=
  ⟨rfl, fun _ => nofun, fun _ => rfl⟩

theorem scanOutgoing_scans {after : EdgeScan} (h : scanOutgoing basis state scan fact = .ok after) :
    Scans basis state LeadsOut StopsOutgoing scan [fact] after := by
  unfold scanOutgoing at h
  split at h
  next hrule =>
    cases h
    exact .uncertain (wellPlaced_stateUncertainty nofun) rfl rfl rfl fun _ hleads => not_edgeRule hrule nofun hleads.2.1
  next hrule =>
    have hnot : ∀ target, ¬LeadsOut fact target := fun _ hleads => not_edgeRule hrule nofun hleads.2.1
    split at h <;> cases h
    · exact .uncertain (wellPlaced_stateUncertainty nofun) rfl rfl rfl hnot
    · exact .uncertain wellPlaced_nonDefiniteUncertainty rfl rfl rfl hnot
  next ruleVariantId hrule =>
    split at h
    · cases h
    · rename_i entityId hobject
      split at h <;> cases h
      · rename_i hdefinite
        refine .candidate fun target => ⟨fun hleads => ?_, fun htarget => ⟨hdefinite, ⟨_, hrule⟩, ?_⟩⟩
        · simpa [hobject] using hleads.2.2
        · rw [hobject, ← htarget]
      · rename_i hdefinite
        exact .uncertain wellPlaced_nonDefiniteUncertainty rfl rfl rfl fun _ hleads => hdefinite hleads.1
  next hrule =>
    cases h
    exact .stopped (.inl ⟨_, hrule⟩) fun _ hleads => absurd hleads.2.1 (not_edgeRule hrule (by simp))
  next hrule =>
    cases h
    exact .stopped (.inr (.inl hrule)) fun _ hleads => not_edgeRule hrule nofun hleads.2.1
  next hrule =>
    cases h
    exact .stopped (.inr (.inr hrule)) fun _ hleads => not_edgeRule hrule nofun hleads.2.1

theorem scanIncoming_scans : Scans basis state LeadsIn StopsIncoming scan [fact] (scanIncoming basis state scan fact) := by
  unfold scanIncoming
  split
  next hrule =>
    exact .uncertain (wellPlaced_stateUncertainty nofun) rfl rfl rfl fun _ hleads => not_edgeRule hrule nofun hleads.2.1
  next ruleVariantId hrule =>
    split
    · rename_i hdefinite
      exact .candidate fun target => ⟨fun hleads => hleads.2.2, fun htarget => ⟨hdefinite, ⟨_, hrule⟩, htarget⟩⟩
    · rename_i hdefinite
      exact .uncertain wellPlaced_nonDefiniteUncertainty rfl rfl rfl fun _ hleads => hdefinite hleads.1
  next hrule =>
    exact .stopped (.inl ⟨_, hrule⟩) fun _ hleads => absurd hleads.2.1 (not_edgeRule hrule (by simp))
  next hrule =>
    exact .stopped (.inr (.inl hrule)) fun _ hleads => not_edgeRule hrule nofun hleads.2.1
  next hrule =>
    exact .stopped (.inr (.inr (.inl hrule))) fun _ hleads => not_edgeRule hrule nofun hleads.2.1
  next hrule =>
    exact .stopped (.inr (.inr (.inr hrule))) fun _ hleads => not_edgeRule hrule nofun hleads.2.1

end Facts

/-! ## All facts at an entity -/

/-- Every fact at the entity is accounted for. -/
structure Expanded (basis : ImpactBasis) (ir : EngineeringIR) (uncertainties : Uncertainties) (entityId : Text) :
    Prop where
  outgoing : ∀ fact ∈ ir.facts, fact.subject = entityId →
    (∃ target, LeadsOut fact target) ∨ FactNoted uncertainties basis entityId fact ∨ StopsOutgoing fact
  incoming : ∀ fact ∈ ir.facts, fact.object = .entity entityId →
    (∃ target, LeadsIn fact target) ∨ FactNoted uncertainties basis entityId fact ∨ StopsIncoming fact

theorem Expanded.mono {basis : ImpactBasis} {ir : EngineeringIR} {uncertainties after : Uncertainties} {entityId : Text}
    (h : Expanded basis ir uncertainties entityId) (hnoted : ∀ value, Noted uncertainties value → Noted after value) :
    Expanded basis ir after entityId where
  outgoing := fun fact hfact hsubject =>
    (h.outgoing fact hfact hsubject).imp_right fun h => h.imp_left fun h => h.mono hnoted
  incoming := fun fact hfact hobject =>
    (h.incoming fact hfact hobject).imp_right fun h => h.imp_left fun h => h.mono hnoted

section EdgeCandidates

variable {basis : ImpactBasis} {state : ReachState} {ir : EngineeringIR}

theorem foldlM_scanOutgoing_scans {scan after : EdgeScan} {facts : List SemanticFact}
    (h : facts.foldlM (scanOutgoing basis state) scan = .ok after) :
    Scans basis state LeadsOut StopsOutgoing scan facts after :=
  foldlM_rule (P := fun facts after => Scans basis state LeadsOut StopsOutgoing scan facts after)
    (fun _ _ _ _ hscans hstep => hscans.append (scanOutgoing_scans hstep)) .nil h

theorem foldl_scanIncoming_scans (basis : ImpactBasis) (state : ReachState) (scan : EdgeScan)
    (facts : List SemanticFact) :
    Scans basis state LeadsIn StopsIncoming scan facts (facts.foldl (scanIncoming basis state) scan) := by
  induction facts generalizing scan with
  | nil => exact .nil
  | cons fact facts ih => exact Scans.append scanIncoming_scans (ih _)

/-- The scan of an entity finds exactly the steps that the facts of the snapshot lead to. -/
theorem edgeCandidates_ok {uncertainties : Uncertainties} {scan : EdgeScan}
    (h : edgeCandidates basis state ir uncertainties = .ok scan) :
    (∀ value, Noted uncertainties value → Noted scan.uncertainties value) ∧
      (Filed uncertainties → Filed scan.uncertainties) ∧ Expanded basis ir scan.uncertainties state.entityId ∧
      (∀ target, (∃ step ∈ scan.candidates, step.toEntityId = target) ↔ Follows ir state.entityId target) := by
  simp only [edgeCandidates, bind_eq_ok, pure_eq_ok, Except.ok.injEq] at h
  obtain ⟨middle, hmiddle, rfl⟩ := h
  have hout := foldlM_scanOutgoing_scans hmiddle
  have hin := foldl_scanIncoming_scans basis state middle (incomingFactsByEntityObject ir state.entityId)
  refine ⟨fun value hvalue => hin.noted value (hout.noted value hvalue), fun hfiled => hin.filed (hout.filed hfiled),
    ⟨fun fact hfact hsubject => ?_, fun fact hfact hobject => ?_⟩, fun target => ⟨?_, ?_⟩⟩
  · have hmem : fact ∈ outgoingFactsBySubject ir state.entityId := by simp [outgoingFactsBySubject, hfact, hsubject]
    exact (hout.accounted fact hmem).imp_right fun h => h.imp_left fun h => h.mono hin.noted
  · have hmem : fact ∈ incomingFactsByEntityObject ir state.entityId := by
      simp [incomingFactsByEntityObject, hfact, hobject]
    exact hin.accounted fact hmem
  · rintro ⟨step, hstep, rfl⟩
    rcases hin.sound step (mem_sortBy.mp hstep) with hstep | ⟨fact, hfact, hleads⟩
    · rcases hout.sound step hstep with hstep | ⟨fact, hfact, hleads⟩
      · cases hstep
      · simp only [outgoingFactsBySubject, List.mem_filter, decide_eq_true_eq] at hfact
        exact ⟨fact, hfact.1, .inl ⟨hfact.2, hleads⟩⟩
    · simp only [incomingFactsByEntityObject, List.mem_filter, decide_eq_true_eq] at hfact
      exact ⟨fact, hfact.1, .inr ⟨hfact.2, hleads⟩⟩
  · rintro ⟨fact, hfact, ⟨hsubject, hleads⟩ | ⟨hobject, hleads⟩⟩
    · have hmem : fact ∈ outgoingFactsBySubject ir state.entityId := by simp [outgoingFactsBySubject, hfact, hsubject]
      obtain ⟨step, hstep, htarget⟩ := hout.complete fact hmem target hleads
      exact ⟨step, mem_sortBy.mpr (hin.kept step hstep), htarget⟩
    · have hmem : fact ∈ incomingFactsByEntityObject ir state.entityId := by
        simp [incomingFactsByEntityObject, hfact, hobject]
      obtain ⟨step, hstep, htarget⟩ := hin.complete fact hmem target hleads
      exact ⟨step, mem_sortBy.mpr hstep, htarget⟩

end EdgeCandidates

/-!
## Seeds of a delta

Every seed is marked as propagating exactly when what it is about does so in the snapshot of its basis.
-/

/-! ### Index -/

/-- A member of a collection is known by its id. -/
theorem eq_of_canonicalIds {α : Type} {id : α → Text} {values : List α} (h : CanonicalIds id values) {x y : α}
    (hx : x ∈ values) (hy : y ∈ values) (heq : id x = id y) : x = y := by
  have hnodup : (values.map id).Nodup := List.pairwise_map.mpr (h.imp fun hlt => hlt.ne)
  exact List.inj_on_of_nodup_map hnodup hx hy heq

theorem entityById_of_mem {ir : EngineeringIR} (h : IsValidated ir) {entity : SemanticEntity}
    (hmem : entity ∈ ir.entities) : entityById ir entity.id = some entity := by
  cases hfind : entityById ir entity.id with
  | none =>
      have := List.find?_eq_none.mp hfind entity hmem
      simp at this
  | some found =>
      have hid : found.id = entity.id := by simpa using List.find?_some hfind
      rw [eq_of_canonicalIds h.entities (List.mem_of_find?_eq_some hfind) hmem hid]

/-! ### Facts of the delta -/

section Delta

variable [Sha256]

/-- The added facts are in the later snapshot, the removed facts in the earlier one. -/
theorem mem_of_buildFactDelta {before after : FactDeltaEndpointContext} {delta : FactDelta}
    (h : buildFactDelta before after = .ok delta) :
    (∀ fact ∈ delta.added, fact ∈ after.snapshot.ir.facts) ∧ ∀ fact ∈ delta.removed, fact ∈ before.snapshot.ir.facts := by
  simp only [buildFactDelta, bind_eq_ok, pure_eq_ok, Except.ok.injEq] at h
  obtain ⟨_, -, _, -, _, -, _, -, _, -, _, -, diff, hdiff, _, -, rfl⟩ := h
  exact mem_of_mergeDiff hdiff

/-! ### Seeds -/

/-- The seed is marked as it propagates, and its anchor is that of what it is about. -/
def Marked (before after : EngineeringIR) (entry : PropagatingSeed) : Prop :=
  entry.propagates ↔ Propagates (snapshotOf before after entry.seed.basis) entry.seed

theorem marked_of_mem_entitySeeds {before after : EngineeringIR} {step : Walked SemanticEntity}
    {entries : List PropagatingSeed} (h : entitySeeds step = .ok entries) {entry : PropagatingSeed} (hmem : entry ∈ entries) :
    Marked before after entry := by
  have hentity : ∀ {basis : ImpactBasis} {subject : ImpactSeedSubject} {anchor : Text}, subject.entityId?.isSome →
      Marked before after ⟨impactSeed basis subject anchor, true⟩ := by
    intro basis subject anchor hsubject
    cases subject <;> simp_all [Marked, Propagates, impactSeed, ImpactSeedSubject.entityId?]
  cases step with
  | left entity =>
      cases h
      cases List.mem_singleton.mp hmem
      exact hentity rfl
  | right entity =>
      cases h
      cases List.mem_singleton.mp hmem
      exact hentity rfl
  | both x y =>
      simp only [entitySeeds] at h
      split at h
      · cases h
      · split at h <;> cases h
        · cases hmem
        · simp only [List.mem_cons, List.not_mem_nil, or_false] at hmem
          rcases hmem with rfl | rfl <;> exact hentity rfl

/-- A seed of a fact is marked with the authority of the fact in its snapshot. -/
theorem marked_factSeed {before after : EngineeringIR} {basis : ImpactBasis} {fact : SemanticFact}
    {subject : Text → ImpactSeedSubject} (hsubject : subject = .factAdded ∨ subject = .factRemoved)
    (hfacts : CanonicalIds SemanticFact.id (snapshotOf before after basis).facts)
    (hmem : fact ∈ (snapshotOf before after basis).facts) :
    Marked before after ⟨impactSeed basis (subject fact.id) fact.subject, hasDefiniteAuthority fact⟩ := by
  have hiff : hasDefiniteAuthority fact = true ↔
      ∃ other ∈ (snapshotOf before after basis).facts, other.id = fact.id ∧ hasDefiniteAuthority other := by
    constructor
    · exact fun h => ⟨fact, hmem, rfl, h⟩
    · rintro ⟨other, hother, hid, h⟩
      rwa [eq_of_canonicalIds hfacts hother hmem hid] at h
  rcases hsubject with rfl | rfl <;> simpa only [Marked, Propagates, impactSeed] using hiff

theorem marked_of_mem_changeSeeds {before after : EngineeringIR} {change : SemanticFactChange}
    {entries : List PropagatingSeed} (h : changeSeeds before after change = .ok entries) {entry : PropagatingSeed}
    (hmem : entry ∈ entries) : Marked before after entry := by
  simp only [changeSeeds, bind_eq_ok, pure_eq_ok, Except.ok.injEq] at h
  obtain ⟨old, -, new, -, rfl⟩ := h
  simp only [List.mem_append, List.mem_map, List.mem_flatMap, List.mem_cons, List.not_mem_nil, or_false] at hmem
  rcases hmem with (⟨assertion, -, rfl⟩ | ⟨assertion, -, rfl⟩) | ⟨update, -, rfl | rfl⟩ <;>
    simp [Marked, Propagates, impactSeed]

/-- All seeds of a delta are marked. -/
theorem marked_of_mem_collectSeeds {before after : FactDeltaEndpointContext} {delta : FactDelta}
    (hdelta : buildFactDelta before after = .ok delta) {seeds : List PropagatingSeed}
    (h : collectSeeds delta before.snapshot.ir after.snapshot.ir = .ok seeds) {entry : PropagatingSeed}
    (hmem : entry ∈ seeds) : Marked before.snapshot.ir after.snapshot.ir entry := by
  simp only [collectSeeds, collectEntitySeeds, collectFactSeeds, bind_eq_ok, pure_eq_ok, Except.ok.injEq] at h
  obtain ⟨_, ⟨walked, hwalked, rfl⟩, _, ⟨changed, hchanged, rfl⟩, rfl⟩ := h
  obtain ⟨hadded, hremoved⟩ := mem_of_buildFactDelta hdelta
  simp only [mem_sortBy, List.mem_append, List.mem_flatten, List.mem_map] at hmem
  rcases hmem with ⟨entries, hentries, hentry⟩ | (⟨fact, hfact, rfl⟩ | ⟨fact, hfact, rfl⟩) | ⟨entries, hentries, hentry⟩
  · obtain ⟨step, -, hstep⟩ := exists_of_mem_mapM hwalked hentries
    exact marked_of_mem_entitySeeds hstep hentry
  · exact marked_factSeed (.inl rfl) after.snapshot.validated.facts (hadded fact hfact)
  · exact marked_factSeed (.inr rfl) before.snapshot.validated.facts (hremoved fact hfact)
  · obtain ⟨change, -, hchange⟩ := exists_of_mem_mapM hchanged hentries
    exact marked_of_mem_changeSeeds hchange hentry

end Delta

/-! ### Uncertain seeds -/

/-- The uncertainties of seeds are filed. -/
theorem filed_seedUncertainty {before after : EngineeringIR} {seeds : List PropagatingSeed} {uncertainties : Uncertainties}
    (h : seeds.foldlM (seedUncertainty before after) .empty = .ok uncertainties) : Filed uncertainties := by
  refine foldlM_invariant (fun between entry after hfiled hstep => ?_) filed_empty h
  unfold seedUncertainty at hstep
  dsimp only at hstep
  split at hstep
  · cases hstep
    exact hfiled
  · simp only [bind_eq_ok, pure_eq_ok, Except.ok.injEq] at hstep
    obtain ⟨fact, -, rfl⟩ := hstep
    exact hfiled.add wellPlaced_nonDefiniteUncertainty

end SecPlatform.Compiler.SemanticImpact
