import SecPlatform.Compiler.SemanticImpact.Lemmas.Edges
import SecPlatform.Compiler.SemanticImpact.Lemmas.Traversal
import SecPlatform.Compiler.SemanticImpact.Lemmas.Verification

/-!
# Theorems on impact propagation

No impact is lost: what a change reaches in either snapshot is reported, each fact there is followed, left
uncertain or stops, and what can be verified is.
-/

namespace SecPlatform.Compiler.SemanticImpact

open Contracts Semantics IR

section Propagation

variable [Sha256]

/-! ## Parts of an impact -/

/-- The steps by which an impact is built. -/
structure Built (before after : FactDeltaEndpointContext) (delta : FactDelta) (seeds : List PropagatingSeed)
    (uncertainties : Uncertainties) (fromTraversal toTraversal : Traversal) (verification : Verification)
    (impact : SemanticImpactPropagation) : Prop where
  compared : buildFactDelta before after = .ok delta
  collected : collectSeeds delta before.snapshot.ir after.snapshot.ir = .ok seeds
  uncertain : seeds.foldlM (seedUncertainty before.snapshot.ir after.snapshot.ir) .empty = .ok uncertainties
  traversedFrom : traverseBasis .from seeds before.snapshot.ir uncertainties = .ok fromTraversal
  traversedTo : traverseBasis .to seeds after.snapshot.ir fromTraversal.uncertainties = .ok toTraversal
  verified : (sourcesForVerification seeds fromTraversal.states toTraversal.states).foldlM
    (collectSource before.snapshot.ir after.snapshot.ir) ⟨.empty, toTraversal.uncertainties⟩ = .ok verification
  seeds_eq : impact.seeds = seeds.map PropagatingSeed.seed
  mem_direct : ∀ value, value ∈ impact.direct ++ impact.transitive ↔
    value ∈ occurrencesOf .from (seeds.map fun entry => (entry.seed.basis, entry.seed.anchorEntityId)) fromTraversal.states ∨
    value ∈ occurrencesOf .to (seeds.map fun entry => (entry.seed.basis, entry.seed.anchorEntityId)) toTraversal.states
  mem_uncertainties : ∀ value, value ∈ impact.uncertainties ↔
    ∃ draft ∈ verification.uncertainties.values, draft.toImpactUncertainty = value
  mem_verification : ∀ value, value ∈ impact.verification ↔
    ∃ entry ∈ verification.recommendations.entries, recommendation entry = value

/-- Every impact is built by these steps. -/
theorem exists_built {supplied : FactDelta} {before after : FactDeltaEndpointContext} {impact : SemanticImpactPropagation}
    (h : buildImpactPropagation supplied before after = .ok impact) :
    ∃ delta seeds uncertainties fromTraversal toTraversal verification,
      Built before after delta seeds uncertainties fromTraversal toTraversal verification impact := by
  simp only [buildImpactPropagation, assertCanonicalDelta, collectVerification, bind_eq_ok, pure_eq_ok,
    Except.ok.injEq] at h
  obtain ⟨_, -, delta, ⟨canonical, hcanonical, hdelta⟩, _, -, seeds, hseeds, uncertainties, huncertain, fromTraversal, hfrom,
    toTraversal, hto, _, ⟨verification, hverified, rfl⟩, _, -, rfl⟩ := h
  have hdelta : canonical = delta := by
    split at hdelta
    · exact Except.ok.inj hdelta
    · cases hdelta
  subst hdelta
  refine ⟨canonical, seeds, uncertainties, fromTraversal, toTraversal, verification, hcanonical, hseeds, huncertain, hfrom,
    hto, hverified, rfl, fun value => ?_, fun value => ?_, fun value => ?_⟩
  · simp only [List.mem_append, mem_sortBy, List.mem_filter, decide_eq_true_eq]
    cases hlevel : value.level <;> simp
  · simp
  · simp

/-! ## Reached entities -/

omit [Sha256] in
/-- The anchors of the traversal are those of the seeds that propagate. -/
theorem anchor_iff {before after : FactDeltaEndpointContext} {seeds : List PropagatingSeed}
    (hmarked : ∀ entry ∈ seeds, Marked before.snapshot.ir after.snapshot.ir entry) {basis : ImpactBasis} {entityId : Text} :
    Anchor basis seeds entityId ↔ ∃ seed ∈ seeds.map PropagatingSeed.seed, seed.basis = basis ∧
      Propagates (snapshotOf before.snapshot.ir after.snapshot.ir basis) seed ∧ seed.anchorEntityId = entityId := by
  simp only [Anchor, List.mem_map, exists_exists_and_eq_and]
  constructor
  · rintro ⟨entry, hentry, rfl, hpropagates, hanchor⟩
    exact ⟨entry, hentry, rfl, (hmarked entry hentry).mp hpropagates, hanchor⟩
  · rintro ⟨entry, hentry, rfl, hpropagates, hanchor⟩
    exact ⟨entry, hentry, rfl, (hmarked entry hentry).mpr hpropagates, hanchor⟩

omit [Sha256] in
/-- An entity is reached exactly when the traversal gives it a state. -/
theorem reached_iff {before after : FactDeltaEndpointContext} {seeds : List PropagatingSeed} {basis : ImpactBasis}
    (hmarked : ∀ entry ∈ seeds, Marked before.snapshot.ir after.snapshot.ir entry) {uncertainties : Uncertainties}
    {traversal : Traversal}
    (h : traverseBasis basis seeds (snapshotOf before.snapshot.ir after.snapshot.ir basis) uncertainties = .ok traversal)
    {entityId : Text} :
    Reached basis (snapshotOf before.snapshot.ir after.snapshot.ir basis) (seeds.map PropagatingSeed.seed) entityId ↔
      entityId ∈ traversal.states.keys := by
  obtain ⟨htraversed, -, -, hstart⟩ := traverseBasis_ok h
  constructor
  · rintro ⟨seed, hseed, hbasis, hpropagates, hpath⟩
    exact htraversed.closed hstart ((anchor_iff hmarked).mpr ⟨seed, hseed, hbasis, hpropagates, rfl⟩) hpath
  · intro hkey
    obtain ⟨anchor, hanchor, hpath⟩ := htraversed.reached entityId hkey
    obtain ⟨seed, hseed, hbasis, hpropagates, rfl⟩ := (anchor_iff hmarked).mp hanchor
    exact ⟨seed, hseed, hbasis, hpropagates, hpath⟩

/-! ## Accounts -/

omit [Sha256] in
/-- An occurrence of a basis is a state away from the seeds. -/
theorem mem_occurrencesOf {basis : ImpactBasis} {anchors : List (ImpactBasis × Text)} {states : ReachStates}
    {value : ImpactOccurrence} :
    value ∈ occurrencesOf basis anchors states ↔
      (basis, value.entityId) ∉ anchors ∧ ∃ state ∈ states.values, occurrence basis state = some value := by
  simp [occurrencesOf, and_comm]

omit [Sha256] in
theorem of_occurrence_eq_some {basis : ImpactBasis} {state : ReachState} {value : ImpactOccurrence}
    (h : occurrence basis state = some value) : value.basis = basis ∧ value.entityId = state.entityId := by
  unfold occurrence at h
  split at h <;> cases h
  exact ⟨rfl, rfl⟩

/-- The traversal of a basis, and what the impact keeps of it. -/
structure Kept (basis : ImpactBasis) (ir : EngineeringIR) (seeds : List PropagatingSeed) (sources : List ImpactSource)
    (traversal : Traversal) (verification : Verification) (impact : SemanticImpactPropagation) : Prop where
  traversed : ∃ start, traverseBasis basis seeds ir start = .ok traversal
  noted : ∀ value, Noted traversal.uncertainties value → Noted verification.uncertainties value
  occurs : ∀ value, value ∈ impact.direct ++ impact.transitive ∧ value.basis = basis ↔
    value ∈ occurrencesOf basis (seeds.map fun entry => (entry.seed.basis, entry.seed.anchorEntityId)) traversal.states
  sources : ∀ state ∈ traversal.states.values, state.distance ≠ 0 →
    ∃ source ∈ sources, (source.basis, source.entityId) = (basis, state.entityId)

variable {before after : FactDeltaEndpointContext} {delta : FactDelta} {seeds : List PropagatingSeed}
  {uncertainties : Uncertainties} {fromTraversal toTraversal : Traversal} {verification : Verification}
  {impact : SemanticImpactPropagation}

/-- The impact keeps the traversals of both bases. -/
theorem Built.kept
    (h : Built before after delta seeds uncertainties fromTraversal toTraversal verification impact) (basis : ImpactBasis) :
    ∃ traversal, Kept basis (snapshotOf before.snapshot.ir after.snapshot.ir basis) seeds
      (sourcesForVerification seeds fromTraversal.states toTraversal.states) traversal verification impact := by
  obtain ⟨-, htoNoted, -, -⟩ := traverseBasis_ok h.traversedTo
  obtain ⟨hgrows, -⟩ := foldlM_collectSource h.verified
  cases basis with
  | «from» =>
      refine ⟨fromTraversal, ⟨uncertainties, h.traversedFrom⟩,
        fun value hvalue => hgrows.noted value (htoNoted value hvalue), fun value => ?_, fun state hstate hdistance => ?_⟩
      · rw [h.mem_direct]
        constructor
        · rintro ⟨hmem | hmem, hbasis⟩
          · exact hmem
          · obtain ⟨-, state, -, hstate⟩ := mem_occurrencesOf.mp hmem
            rw [(of_occurrence_eq_some hstate).1] at hbasis
            cases hbasis
        · intro hmem
          obtain ⟨-, state, -, hstate⟩ := mem_occurrencesOf.mp hmem
          exact ⟨.inl hmem, (of_occurrence_eq_some hstate).1⟩
      · exact exists_source_iff.mpr (.inr (.inl ⟨state, hstate, hdistance, rfl⟩))
  | «to» =>
      refine ⟨toTraversal, ⟨fromTraversal.uncertainties, h.traversedTo⟩, hgrows.noted, fun value => ?_,
        fun state hstate hdistance => ?_⟩
      · rw [h.mem_direct]
        constructor
        · rintro ⟨hmem | hmem, hbasis⟩
          · obtain ⟨-, state, -, hstate⟩ := mem_occurrencesOf.mp hmem
            rw [(of_occurrence_eq_some hstate).1] at hbasis
            cases hbasis
          · exact hmem
        · intro hmem
          obtain ⟨-, state, -, hstate⟩ := mem_occurrencesOf.mp hmem
          exact ⟨.inr hmem, (of_occurrence_eq_some hstate).1⟩
      · exact exists_source_iff.mpr (.inr (.inr ⟨state, hstate, hdistance, rfl⟩))

/-- An uncertainty noted at the end is in the impact. -/
theorem Built.exists_uncertainty
    (h : Built before after delta seeds uncertainties fromTraversal toTraversal verification impact)
    {value : ImpactUncertainty} (hplaced : WellPlaced value) (hnoted : Noted verification.uncertainties value) :
    ∃ other ∈ impact.uncertainties, other.basis = value.basis ∧ other.boundaryEntityId = value.boundaryEntityId ∧
      other.factId = value.factId := by
  obtain ⟨-, -, hfromFiled, -⟩ := traverseBasis_ok h.traversedFrom
  obtain ⟨-, -, htoFiled, -⟩ := traverseBasis_ok h.traversedTo
  obtain ⟨hgrows, -⟩ := foldlM_collectSource h.verified
  have hfiled : Filed verification.uncertainties :=
    hgrows.filed (htoFiled (hfromFiled (filed_seedUncertainty h.uncertain)))
  obtain ⟨draft, hdraft, hvalue⟩ := hnoted.exists_mem hfiled hplaced
  exact ⟨draft.toImpactUncertainty, (h.mem_uncertainties _).mpr ⟨draft, hdraft, rfl⟩, hvalue⟩

/-- A settled source is cited or has an uncertainty. -/
theorem Built.cited_or_bounded
    (h : Built before after delta seeds uncertainties fromTraversal toTraversal verification impact) {basis : ImpactBasis}
    {entity : SemanticEntity} (hentity : entityById (snapshotOf before.snapshot.ir after.snapshot.ir basis) entity.id =
      some entity) (hkind : entity.kind = .scenario ∨ entity.kind = .artifact)
    (hsource : ∃ source ∈ sourcesForVerification seeds fromTraversal.states toTraversal.states,
      (source.basis, source.entityId) = (basis, entity.id)) :
    Cited impact basis entity.id ∨ BoundedAt impact basis entity.id := by
  obtain ⟨hgrows, hsettled⟩ := foldlM_collectSource h.verified
  obtain ⟨source, hmem, heq⟩ := hsource
  obtain ⟨rfl, hid⟩ := Prod.mk.inj heq
  rcases hsettled source hmem entity (hid ▸ hentity) hkind with hcites | ⟨value, hplaced, hbasis, hboundary, hnoted⟩
  · obtain ⟨entry, hentry, reason, hreason, hbasis, hsourceId⟩ := hcites.exists_mem
      (hgrows.filedReasons fun _ _ hget => by cases hget)
    exact .inl ⟨_, (h.mem_verification _).mpr ⟨entry, hentry, rfl⟩, reason, hreason, hbasis, hsourceId.trans hid⟩
  · obtain ⟨other, hother, hotherBasis, hotherBoundary, -⟩ := h.exists_uncertainty hplaced hnoted
    exact .inr ⟨other, hother, hotherBasis.trans hbasis, hotherBoundary.trans (hid ▸ hboundary)⟩

/-- The impact accounts for the entities of a basis. -/
theorem Built.accountsFor
    (h : Built before after delta seeds uncertainties fromTraversal toTraversal verification impact) (basis : ImpactBasis) :
    AccountsFor impact basis (snapshotOf before.snapshot.ir after.snapshot.ir basis) := by
  have hmarked : ∀ entry ∈ seeds, Marked before.snapshot.ir after.snapshot.ir entry :=
    fun entry hentry => marked_of_mem_collectSeeds h.compared h.collected hentry
  obtain ⟨traversal, hkept⟩ := h.kept basis
  obtain ⟨start, hrun⟩ := hkept.traversed
  obtain ⟨htraversed, -, -, -⟩ := traverseBasis_ok hrun
  have hreached : ∀ {entityId}, Reached basis (snapshotOf before.snapshot.ir after.snapshot.ir basis) impact.seeds entityId ↔
      entityId ∈ traversal.states.keys := by
    intro entityId
    rw [h.seeds_eq]
    exact reached_iff hmarked hrun
  have hbounded : ∀ {entityId fact}, FactNoted traversal.uncertainties basis entityId fact →
      FactBoundedAt impact basis entityId fact := by
    rintro entityId fact ⟨value, hplaced, rfl, hboundary, hfact, hnoted⟩
    obtain ⟨other, hother, hbasis, hotherBoundary, hotherFact⟩ := h.exists_uncertainty hplaced (hkept.noted value hnoted)
    exact ⟨other, hother, hbasis, hotherBoundary.trans hboundary, hotherFact.trans hfact⟩
  refine ⟨fun entityId hreach => ?_, fun value hvalue hbasis => ?_, fun entityId hreach fact hfact hsubject => ?_,
    fun entityId hreach fact hfact hobject => ?_, fun entity hentity hkind hreach => ?_⟩
  · obtain ⟨state, hget⟩ := OrderedMap.mem_keys.mp (hreached.mp hreach)
    have hplaced := htraversed.placed entityId state hget
    by_cases hanchor : (basis, entityId) ∈ seeds.map fun entry => (entry.seed.basis, entry.seed.anchorEntityId)
    · obtain ⟨entry, hentry, heq⟩ := List.mem_map.mp hanchor
      exact .inl ⟨entry.seed, h.seeds_eq ▸ List.mem_map_of_mem hentry, (Prod.mk.inj heq).1, (Prod.mk.inj heq).2⟩
    · have hdistance : state.distance ≠ 0 := by
        intro hzero
        obtain ⟨entry, hentry, hbasis, -, hentityId⟩ := htraversed.anchored entityId state hget hzero
        exact hanchor (List.mem_map.mpr ⟨entry, hentry, Prod.ext hbasis hentityId⟩)
      have hmem := mem_occurrencesOf.mpr ⟨hplaced ▸ hanchor, state, OrderedMap.mem_values.mpr ⟨_, hget⟩, if_neg hdistance⟩
      obtain ⟨hoccurs, hbasis⟩ := (hkept.occurs _).mpr hmem
      exact .inr ⟨_, hoccurs, hbasis, hplaced⟩
  · obtain ⟨-, state, hstate, hoccurs⟩ := mem_occurrencesOf.mp ((hkept.occurs value).mp ⟨hvalue, hbasis⟩)
    obtain ⟨key, hget⟩ := OrderedMap.mem_values.mp hstate
    rw [hreached, (of_occurrence_eq_some hoccurs).2, htraversed.placed key state hget]
    exact OrderedMap.mem_keys.mpr ⟨state, hget⟩
  · have hcovered := htraversed.covered entityId (hreached.mp hreach)
    rcases hcovered.expanded.outgoing fact hfact hsubject with ⟨target, hleads⟩ | hnoted | hstops
    · exact .inl ⟨target, hleads, hreached.mpr (hcovered.followed target ⟨fact, hfact, .inl ⟨hsubject, hleads⟩⟩)⟩
    · exact .inr (.inl (hbounded hnoted))
    · exact .inr (.inr hstops)
  · have hcovered := htraversed.covered entityId (hreached.mp hreach)
    rcases hcovered.expanded.incoming fact hfact hobject with ⟨target, hleads⟩ | hnoted | hstops
    · exact .inl ⟨target, hleads, hreached.mpr (hcovered.followed target ⟨fact, hfact, .inr ⟨hobject, hleads⟩⟩)⟩
    · exact .inr (.inl (hbounded hnoted))
    · exact .inr (.inr hstops)
  · obtain ⟨state, hget⟩ := OrderedMap.mem_keys.mp (hreached.mp hreach)
    have hplaced := htraversed.placed entity.id state hget
    have hvalidated : IsValidated (snapshotOf before.snapshot.ir after.snapshot.ir basis) := by
      cases basis
      · exact before.snapshot.validated
      · exact after.snapshot.validated
    refine h.cited_or_bounded (entityById_of_mem hvalidated hentity) hkind ?_
    by_cases hdistance : state.distance = 0
    · obtain ⟨entry, hentry, hbasis, hpropagates, hentityId⟩ := htraversed.anchored entity.id state hget hdistance
      exact exists_source_iff.mpr (.inl ⟨entry, hentry, by simp [isSource, hpropagates], by rw [hbasis, hentityId]⟩)
    · rw [← hplaced]
      exact hkept.sources state (OrderedMap.mem_values.mpr ⟨_, hget⟩) hdistance

/-- For every delta of two validated snapshots that has an impact, the impact accounts for all that the change reaches
in the earlier and in the later snapshot. -/
theorem buildImpactPropagation_accountsFor {supplied : FactDelta} {before after : FactDeltaEndpointContext}
    {impact : SemanticImpactPropagation} (h : buildImpactPropagation supplied before after = .ok impact) :
    AccountsFor impact .from before.snapshot.ir ∧ AccountsFor impact .to after.snapshot.ir := by
  obtain ⟨delta, seeds, uncertainties, fromTraversal, toTraversal, verification, hbuilt⟩ := exists_built h
  exact ⟨hbuilt.accountsFor .from, hbuilt.accountsFor .to⟩

end Propagation

section Example

/-! ### An example -/

local instance artifactSha256 : Sha256 := ⟨fun _ => ⟨Text.ofString "sha256:" ++ List.replicate 64 (unit '0'), isDigest_zeros⟩⟩

def artifactIR (revision : Text) (entities : List SemanticEntity) : EngineeringIR :=
  ⟨"2", "graph:app", revision, revision, "app:demo", entities, [], []⟩

/-- A snapshot without entities. -/
def emptyContext : FactDeltaEndpointContext :=
  ⟨"tx:1", "revision:1", "revision:1", ⟨artifactIR "revision:1" [], ⟨.nil, .nil, nofun, nofun⟩⟩⟩

/-- A snapshot with an artifact that nothing verifies. -/
def artifactContext : FactDeltaEndpointContext :=
  ⟨"tx:2", "revision:2", "revision:2", ⟨artifactIR "revision:2" [⟨"artifact:a", .artifact, "a", []⟩],
    ⟨List.pairwise_singleton _ _, .nil, nofun, nofun⟩⟩⟩

/-- An artifact is added: its impact is an uncertainty about it. -/
theorem buildImpactPropagation_accountsFor_artifact : ∃ delta impact,
    buildFactDelta emptyContext artifactContext = .ok delta ∧
      buildImpactPropagation delta emptyContext artifactContext = .ok impact ∧
      AccountsFor impact .from emptyContext.snapshot.ir ∧ AccountsFor impact .to artifactContext.snapshot.ir := by
  have hrun : (do
      let delta ← buildFactDelta emptyContext artifactContext
      buildImpactPropagation delta emptyContext artifactContext).isOk = true := by decide +kernel
  cases hdelta : buildFactDelta emptyContext artifactContext with
  | error failure => rw [hdelta] at hrun; cases hrun
  | ok delta =>
      rw [hdelta, ok_bind] at hrun
      cases himpact : buildImpactPropagation delta emptyContext artifactContext with
      | error failure => rw [himpact] at hrun; cases hrun
      | ok impact => exact ⟨delta, impact, rfl, himpact, buildImpactPropagation_accountsFor himpact⟩

end Example

end SecPlatform.Compiler.SemanticImpact
