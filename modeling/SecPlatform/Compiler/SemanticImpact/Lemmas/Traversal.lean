import SecPlatform.Compiler.SemanticImpact.Lemmas.Edges

/-!
# The traversal

Each layer reaches only entities without a state, at the next distance; the states of earlier layers stay as
they are. The traversal ends with every entity of its states expanded: it has reached what the facts lead to.
-/

namespace SecPlatform.Compiler.SemanticImpact

open Contracts Semantics IR

/-! ## Merging -/

/-- A candidate is dropped when the state there is no farther, else the state takes its distance. -/
theorem mergeReachState_cases (states : ReachStates) (candidate : ReachState) :
    (mergeReachState states candidate = none ∧
      ∃ existing, states.get? candidate.entityId = some existing ∧ existing.distance ≤ candidate.distance) ∨
    ∃ merged, mergeReachState states candidate = some (states.set candidate.entityId merged) ∧
      merged.distance = candidate.distance ∧
      (merged.entityId = candidate.entityId ∨
        ∃ existing, states.get? candidate.entityId = some existing ∧ merged.entityId = existing.entityId) ∧
      ∀ existing, states.get? candidate.entityId = some existing → candidate.distance ≤ existing.distance := by
  unfold mergeReachState
  split
  next hnone => exact .inr ⟨candidate, rfl, rfl, .inl rfl, fun existing h => by simp [hnone] at h⟩
  next existing hexisting =>
    have hmin : ∀ {x}, states.get? candidate.entityId = some x → x = existing := by
      intro x hx
      exact (Option.some.inj (hexisting.symm.trans hx)).symm
    split
    next hlt => exact .inr ⟨candidate, rfl, rfl, .inl rfl, fun x hx => hmin hx ▸ hlt.le⟩
    next hnot =>
      split
      next hlt => exact .inl ⟨rfl, existing, hexisting, hlt.le⟩
      next hge =>
        dsimp only
        split
        next => exact .inl ⟨rfl, existing, hexisting, not_lt.mp hnot⟩
        next =>
          exact .inr ⟨_, rfl, le_antisymm (not_lt.mp hnot) (not_lt.mp hge), .inr ⟨existing, hexisting, rfl⟩,
            fun x hx => hmin hx ▸ not_lt.mp hge⟩

/-! ## Progress -/

/-- The traversal keeps what it has found. -/
structure Grows (traversal after : Traversal) : Prop where
  noted : ∀ value, Noted traversal.uncertainties value → Noted after.uncertainties value
  filed : Filed traversal.uncertainties → Filed after.uncertainties
  keys : ∀ entityId ∈ traversal.states.keys, entityId ∈ after.states.keys

theorem Grows.refl (traversal : Traversal) : Grows traversal traversal := ⟨fun _ h => h, id, fun _ h => h⟩

theorem Grows.trans {traversal between after : Traversal} (h : Grows traversal between) (h' : Grows between after) :
    Grows traversal after where
  noted := fun value hvalue => h'.noted value (h.noted value hvalue)
  filed := fun hfiled => h'.filed (h.filed hfiled)
  keys := fun entityId hkey => h'.keys entityId (h.keys entityId hkey)

/-- The facts at the entity are accounted for, and what they lead to has a state. -/
structure Covered (basis : ImpactBasis) (ir : EngineeringIR) (traversal : Traversal) (entityId : Text) : Prop where
  expanded : Expanded basis ir traversal.uncertainties entityId
  followed : ∀ target, Follows ir entityId target → target ∈ traversal.states.keys

theorem Covered.mono {basis : ImpactBasis} {ir : EngineeringIR} {traversal after : Traversal} {entityId : Text}
    (h : Covered basis ir traversal entityId) (hgrows : Grows traversal after) : Covered basis ir after entityId where
  expanded := h.expanded.mono hgrows.noted
  followed := fun target htarget => hgrows.keys target (h.followed target htarget)

/-! ## A layer -/

/-- A layer under way from the states at its start, none of which is farther than `distance`. -/
structure InLayer (ir : EngineeringIR) (start : Traversal) (distance : Nat) (layer : Layer) : Prop where
  near : ∀ entityId state, start.states.get? entityId = some state → state.distance ≤ distance
  grows : Grows start layer.traversal
  kept : ∀ entityId state, start.states.get? entityId = some state →
    layer.traversal.states.get? entityId = some state
  fresh : ∀ entityId state, layer.traversal.states.get? entityId = some state →
    start.states.get? entityId = some state ∨
      entityId ∈ layer.next ∧ state.entityId = entityId ∧ state.distance = distance + 1
  next : ∀ entityId ∈ layer.next, entityId ∈ layer.traversal.states.keys ∧ entityId ∉ start.states.keys ∧
    (entityById ir entityId).isSome ∧ ∃ source ∈ start.states.keys, Follows ir source entityId

section Layer

variable {basis : ImpactBasis} {ir : EngineeringIR} {start : Traversal} {distance : Nat} {layer after : Layer}
  {state : ReachState}

theorem InLayer.init (hnear : ∀ entityId state, start.states.get? entityId = some state → state.distance ≤ distance) :
    InLayer ir start distance ⟨start, []⟩ where
  near := hnear
  grows := .refl start
  kept := fun _ _ h => h
  fresh := fun _ _ h => .inl h
  next := nofun

/-- The uncertainties may grow within a layer. -/
theorem InLayer.uncertain (h : InLayer ir start distance layer) {uncertainties : Uncertainties}
    (hnoted : ∀ value, Noted layer.traversal.uncertainties value → Noted uncertainties value)
    (hfiled : Filed layer.traversal.uncertainties → Filed uncertainties) :
    InLayer ir start distance { layer with traversal := { layer.traversal with uncertainties := uncertainties } } where
  near := h.near
  grows := h.grows.trans ⟨hnoted, hfiled, fun _ h => h⟩
  kept := h.kept
  fresh := h.fresh
  next := h.next

/-- A step to an entity with a state changes nothing, any other gives the entity a state at the next distance. -/
theorem takeStep_ok {step : ImpactPathStep} (hlayer : InLayer ir start distance layer)
    (hstart : state.entityId ∈ start.states.keys) (hdistance : state.distance = distance)
    (hfollows : Follows ir state.entityId step.toEntityId) (h : takeStep basis ir state layer step = .ok after) :
    InLayer ir start distance after ∧ Grows layer.traversal after.traversal ∧
      step.toEntityId ∈ after.traversal.states.keys := by
  unfold takeStep at h
  split at h
  · cases h
  rename_i hentity
  rcases mergeReachState_cases layer.traversal.states (steppedState state step) with
    ⟨hnone, existing, hget, -⟩ | ⟨merged, hsome, hmerged, hplace, hfar⟩
  · rw [hnone] at h
    cases h
    exact ⟨hlayer, .refl _, OrderedMap.mem_keys.mpr ⟨existing, hget⟩⟩
  rw [hsome] at h
  cases h
  have hkey : ∀ entityId, entityId ∈ (layer.traversal.states.set step.toEntityId merged).keys ↔
      entityId = step.toEntityId ∨ entityId ∈ layer.traversal.states.keys := fun _ => OrderedMap.mem_keys_set
  have hnext : ∀ entityId, entityId ∈ (if step.toEntityId ∈ layer.next then layer.next
      else layer.next ++ [step.toEntityId]) ↔ entityId = step.toEntityId ∨ entityId ∈ layer.next := by
    intro entityId
    split
    next hmem => exact ⟨.inr, fun h => h.elim (fun h => h ▸ hmem) id⟩
    next => simp [or_comm]
  -- A state of the start is nearer than the step reaches, so the end of the step had none.
  have hnew : ∀ existing, start.states.get? step.toEntityId ≠ some existing := by
    intro existing hexisting
    have hle : distance + 1 ≤ existing.distance := by
      simpa [steppedState, hdistance] using hfar existing (hlayer.kept _ _ hexisting)
    have := hlayer.near _ _ hexisting
    omega
  have hgrows : Grows layer.traversal
      { layer.traversal with states := layer.traversal.states.set step.toEntityId merged } :=
    ⟨fun _ h => h, id, fun entityId h => (hkey entityId).mpr (.inr h)⟩
  refine ⟨⟨hlayer.near, hlayer.grows.trans hgrows, fun entityId other hget => ?_, fun entityId other hget => ?_,
    fun entityId hmem => ?_⟩, hgrows, (hkey _).mpr (.inl rfl)⟩
  · have hne : step.toEntityId ≠ entityId := by
      rintro rfl
      exact hnew other hget
    simpa only [steppedState, OrderedMap.get?_set_of_ne _ _ hne] using hlayer.kept entityId other hget
  · simp only [steppedState, OrderedMap.get?_set] at hget
    split at hget
    next heq =>
      subst heq
      cases hget
      refine .inr ⟨(hnext _).mpr (.inl rfl), ?_, by rw [hmerged, steppedState, hdistance]⟩
      rcases hplace with hplace | ⟨existing, hexisting, hplace⟩
      · exact hplace
      · rcases hlayer.fresh _ existing hexisting with hold | ⟨-, hentityId, -⟩
        · exact absurd hold (hnew existing)
        · rw [hplace, hentityId]
          rfl
    next =>
      exact (hlayer.fresh entityId other hget).imp_right (And.imp_left fun hmem => (hnext _).mpr (.inr hmem))
  · rcases (hnext entityId).mp hmem with rfl | hmem
    · refine ⟨(hkey _).mpr (.inl rfl), fun hkeys => ?_, ?_, state.entityId, hstart, hfollows⟩
      · obtain ⟨existing, hexisting⟩ := OrderedMap.mem_keys.mp hkeys
        exact hnew existing hexisting
      · simpa [Option.isSome_iff_ne_none] using hentity
    · obtain ⟨hkeys, hrest⟩ := hlayer.next entityId hmem
      exact ⟨(hkey _).mpr (.inr hkeys), hrest⟩

/-- An expanded entity is covered. -/
theorem expandEntity_ok {entityId : Text} (hlayer : InLayer ir start distance layer)
    (hstate : start.states.get? entityId = some state) (hplaced : state.entityId = entityId)
    (hdistance : state.distance = distance) (h : expandEntity basis ir layer entityId = .ok after) :
    InLayer ir start distance after ∧ Grows layer.traversal after.traversal ∧
      Covered basis ir after.traversal entityId := by
  simp only [expandEntity, hlayer.kept _ _ hstate, bind_eq_ok] at h
  obtain ⟨scan, hscan, h⟩ := h
  obtain ⟨hnoted, hfiled, hexpanded, hfollows⟩ := edgeCandidates_ok hscan
  have hstart : state.entityId ∈ start.states.keys := OrderedMap.mem_keys.mpr ⟨state, hplaced ▸ hstate⟩
  have hkeys : Grows layer.traversal { layer.traversal with uncertainties := scan.uncertainties } :=
    ⟨hnoted, hfiled, fun _ h => h⟩
  -- The steps taken so far all end at an entity with a state.
  have hrun := foldlM_rule (P := fun steps (after : Layer) => (∀ step ∈ steps, step ∈ scan.candidates) →
      InLayer ir start distance after ∧
        Grows { layer.traversal with uncertainties := scan.uncertainties } after.traversal ∧
        ∀ step ∈ steps, step.toEntityId ∈ after.traversal.states.keys)
    (fun steps layer step after hrun htake hmem => by
      obtain ⟨hbefore, hgrows, hsteps⟩ := hrun fun step hstep => hmem step (List.mem_append_left _ hstep)
      obtain ⟨hafter, hgrows', hstep⟩ := takeStep_ok hbefore hstart hdistance
        ((hfollows _).mp ⟨step, hmem step (by simp), rfl⟩) htake
      refine ⟨hafter, hgrows.trans hgrows', fun other hother => ?_⟩
      rcases List.mem_append.mp hother with hother | hother
      · exact hgrows'.keys _ (hsteps other hother)
      · cases List.mem_singleton.mp hother
        exact hstep)
    (fun _ => ⟨hlayer.uncertain hnoted hfiled, .refl _, List.forall_mem_nil _⟩) h
  obtain ⟨hafter, hgrows, hsteps⟩ := hrun fun _ hstep => hstep
  refine ⟨hafter, hkeys.trans hgrows, (hplaced ▸ hexpanded).mono hgrows.noted, fun target htarget => ?_⟩
  obtain ⟨step, hstep, rfl⟩ := (hfollows target).mpr (hplaced ▸ htarget)
  exact hsteps step hstep

/-- The states of a frontier stand at the distance of its layer. -/
def AtDistance (states : ReachStates) (distance : Nat) (frontier : List Text) : Prop :=
  ∀ entityId ∈ frontier, ∃ state, states.get? entityId = some state ∧ state.entityId = entityId ∧
    state.distance = distance

/-- A layer covers its frontier. -/
theorem expandLayer_ok {frontier : List Text}
    (hnear : ∀ entityId state, start.states.get? entityId = some state → state.distance ≤ distance)
    (hfrontier : AtDistance start.states distance frontier) (h : expandLayer basis ir start frontier = .ok after) :
    InLayer ir start distance after ∧ ∀ entityId ∈ frontier, Covered basis ir after.traversal entityId := by
  have hrun := foldlM_rule (P := fun expanded (after : Layer) => (∀ entityId ∈ expanded, entityId ∈ frontier) →
      InLayer ir start distance after ∧ ∀ entityId ∈ expanded, Covered basis ir after.traversal entityId)
    (fun expanded layer entityId after hrun hexpand hmem => by
      obtain ⟨hbefore, hcovered⟩ := hrun fun other hother => hmem other (List.mem_append_left _ hother)
      obtain ⟨state, hstate, hplaced, hdistance⟩ := hfrontier entityId (hmem entityId (by simp))
      obtain ⟨hafter, hgrows, hentity⟩ := expandEntity_ok hbefore hstate hplaced hdistance hexpand
      refine ⟨hafter, fun other hother => ?_⟩
      rcases List.mem_append.mp hother with hother | hother
      · exact (hcovered other hother).mono hgrows
      · cases List.mem_singleton.mp hother
        exact hentity)
    (fun _ => ⟨.init hnear, nofun⟩) h
  obtain ⟨hafter, hcovered⟩ := hrun fun entityId hentityId => mem_sortBy.mp hentityId
  exact ⟨hafter, fun entityId hentityId => hcovered entityId (mem_sortBy.mpr hentityId)⟩

end Layer

/-! ## Layers -/

/-- The entities of the snapshot without a state. -/
def unvisited (ir : EngineeringIR) (states : ReachStates) : List SemanticEntity :=
  ir.entities.filter fun entity => entity.id ∉ states.keys

/-- A layer that reaches an entity leaves fewer without a state. -/
theorem unvisited_lt {ir : EngineeringIR} {start : Traversal} {distance : Nat} {layer : Layer} {entityId : Text}
    (hlayer : InLayer ir start distance layer) (hmem : entityId ∈ layer.next) :
    (unvisited ir layer.traversal.states).length < (unvisited ir start.states).length := by
  obtain ⟨hkey, hnew, hentity, -⟩ := hlayer.next entityId hmem
  obtain ⟨entity, hfind⟩ := Option.isSome_iff_exists.mp hentity
  have hid : entity.id = entityId := by simpa using List.find?_some hfind
  have hsub : unvisited ir layer.traversal.states =
      (unvisited ir start.states).filter fun entity => entity.id ∉ layer.traversal.states.keys := by
    rw [unvisited, unvisited, List.filter_filter]
    refine List.filter_congr fun other _ => ?_
    have := hlayer.grows.keys other.id
    rw [Bool.eq_iff_iff]
    simp only [Bool.and_eq_true, decide_eq_true_eq]
    tauto
  rw [hsub, List.length_filter_lt_length_iff_exists]
  exact ⟨entity, List.mem_filter.mpr ⟨List.mem_of_find?_eq_some hfind, by simpa [hid] using hnew⟩, by simpa [hid] using hkey⟩

/-- What the states hold between two layers: those off the frontier are covered. -/
structure Between (basis : ImpactBasis) (ir : EngineeringIR) (anchors : Text → Prop) (distance : Nat)
    (traversal : Traversal) (frontier : List Text) : Prop where
  placed : ∀ entityId state, traversal.states.get? entityId = some state →
    state.entityId = entityId ∧ state.distance ≤ distance
  anchored : ∀ entityId state, traversal.states.get? entityId = some state → state.distance = 0 → anchors entityId
  reached : ∀ entityId ∈ traversal.states.keys, ∃ anchor, anchors anchor ∧ Relation.ReflTransGen (Follows ir) anchor entityId
  atFrontier : AtDistance traversal.states distance frontier
  covered : ∀ entityId ∈ traversal.states.keys, entityId ∉ frontier → Covered basis ir traversal entityId

section Layers

variable {basis : ImpactBasis} {ir : EngineeringIR} {anchors : Text → Prop}

/-- Between two layers. -/
theorem Between.next {distance : Nat} {traversal : Traversal} {frontier : List Text} {layer : Layer}
    (h : Between basis ir anchors distance traversal frontier)
    (hlayer : expandLayer basis ir traversal frontier = .ok layer) :
    InLayer ir traversal distance layer ∧
      Between basis ir anchors (distance + 1) layer.traversal layer.next := by
  obtain ⟨hin, hcovered⟩ := expandLayer_ok (fun entityId state hget => (h.placed entityId state hget).2) h.atFrontier hlayer
  -- A state of the layer is one of its start or one of the next frontier.
  have hkeys : ∀ entityId ∈ layer.traversal.states.keys, entityId ∈ traversal.states.keys ∨ entityId ∈ layer.next := by
    intro entityId hkey
    obtain ⟨state, hget⟩ := OrderedMap.mem_keys.mp hkey
    exact (hin.fresh entityId state hget).imp (fun h => OrderedMap.mem_keys.mpr ⟨state, h⟩) And.left
  refine ⟨hin, fun entityId state hget => ?_, fun entityId state hget hzero => ?_, fun entityId hkey => ?_,
    fun entityId hmem => ?_, fun entityId hkey hnot => ?_⟩
  · rcases hin.fresh entityId state hget with hold | ⟨-, hplaced, hdistance⟩
    · have := h.placed entityId state hold
      exact ⟨this.1, by omega⟩
    · exact ⟨hplaced, hdistance.le⟩
  · rcases hin.fresh entityId state hget with hold | ⟨-, -, hdistance⟩
    · exact h.anchored entityId state hold hzero
    · omega
  · rcases hkeys entityId hkey with hold | hmem
    · exact h.reached entityId hold
    · obtain ⟨-, -, -, source, hsource, hfollows⟩ := hin.next entityId hmem
      obtain ⟨anchor, hanchor, hpath⟩ := h.reached source hsource
      exact ⟨anchor, hanchor, hpath.tail hfollows⟩
  · obtain ⟨hkey, hnew, -, -⟩ := hin.next entityId hmem
    obtain ⟨state, hget⟩ := OrderedMap.mem_keys.mp hkey
    rcases hin.fresh entityId state hget with hold | ⟨-, hplaced, hdistance⟩
    · exact absurd (OrderedMap.mem_keys.mpr ⟨state, hold⟩) hnew
    · exact ⟨state, hget, hplaced, hdistance⟩
  · have hold : entityId ∈ traversal.states.keys := (hkeys entityId hkey).resolve_right hnot
    by_cases hfrontier : entityId ∈ frontier
    · exact hcovered entityId hfrontier
    · exact (h.covered entityId hold hfrontier).mono hin.grows

/-- What holds of the states at the end of the traversal. -/
structure Traversed (basis : ImpactBasis) (ir : EngineeringIR) (anchors : Text → Prop) (traversal : Traversal) : Prop where
  placed : ∀ entityId state, traversal.states.get? entityId = some state → state.entityId = entityId
  anchored : ∀ entityId state, traversal.states.get? entityId = some state → state.distance = 0 → anchors entityId
  reached : ∀ entityId ∈ traversal.states.keys, ∃ anchor, anchors anchor ∧ Relation.ReflTransGen (Follows ir) anchor entityId
  covered : ∀ entityId ∈ traversal.states.keys, Covered basis ir traversal entityId

/-- The layers end with an empty frontier before the fuel does. -/
theorem traverseLayers_ok {fuel distance : Nat} {traversal after : Traversal} {frontier : List Text}
    (h : Between basis ir anchors distance traversal frontier)
    (hfuel : frontier ≠ [] → (unvisited ir traversal.states).length < fuel)
    (hrun : traverseLayers basis ir fuel traversal frontier = .ok after) :
    Traversed basis ir anchors after ∧ Grows traversal after := by
  induction fuel generalizing distance traversal frontier with
  | zero =>
      cases hrun
      have hempty : frontier = [] := by
        by_contra hne
        exact absurd (hfuel hne) (Nat.not_lt_zero _)
      subst hempty
      exact ⟨⟨fun entityId state hget => (h.placed entityId state hget).1, h.anchored, h.reached,
        fun entityId hkey => h.covered entityId hkey List.not_mem_nil⟩, .refl _⟩
  | succ fuel ih =>
      cases frontier with
      | nil =>
          cases hrun
          exact ⟨⟨fun entityId state hget => (h.placed entityId state hget).1, h.anchored, h.reached,
            fun entityId hkey => h.covered entityId hkey List.not_mem_nil⟩, .refl _⟩
      | cons first rest =>
          simp only [traverseLayers, bind_eq_ok] at hrun
          obtain ⟨layer, hlayer, hrun⟩ := hrun
          obtain ⟨hin, hbetween⟩ := h.next hlayer
          have hfuel : layer.next ≠ [] → (unvisited ir layer.traversal.states).length < fuel := by
            intro hne
            obtain ⟨entityId, hmem⟩ := List.exists_mem_of_ne_nil _ hne
            have hlt := unvisited_lt hin hmem
            have := hfuel (List.cons_ne_nil first rest)
            omega
          obtain ⟨htraversed, hgrows⟩ := ih hbetween hfuel hrun
          exact ⟨htraversed, hin.grows.trans hgrows⟩

end Layers

/-! ## The traversal of a basis -/

/-- The anchors from which the traversal of a basis starts. -/
def Anchor (basis : ImpactBasis) (seeds : List PropagatingSeed) (entityId : Text) : Prop :=
  ∃ entry ∈ seeds, entry.seed.basis = basis ∧ entry.propagates ∧ entry.seed.anchorEntityId = entityId

section Basis

variable {basis : ImpactBasis} {ir : EngineeringIR}

/-- The first frontier: one state for each anchor, at distance zero. -/
theorem foldl_mergeSeeds (entries : List PropagatingSeed) (states : ReachStates)
    (h : ∀ entityId state, states.get? entityId = some state → state.entityId = entityId ∧ state.distance = 0) :
    let after := entries.foldl (fun (states : ReachStates) entry =>
      (mergeReachState states (seedState entry.seed)).getD states) states
    (∀ entityId state, after.get? entityId = some state → state.entityId = entityId ∧ state.distance = 0) ∧
      ∀ entityId, entityId ∈ after.keys ↔
        entityId ∈ states.keys ∨ ∃ entry ∈ entries, entry.seed.anchorEntityId = entityId := by
  induction entries generalizing states with
  | nil => exact ⟨h, by simp⟩
  | cons entry entries ih =>
      rw [List.foldl_cons]
      rcases mergeReachState_cases states (seedState entry.seed) with
        ⟨hnone, existing, hget, -⟩ | ⟨merged, hsome, hmerged, hplace, -⟩
      · obtain ⟨hplaced, hkeys⟩ := ih states h
        rw [hnone]
        refine ⟨hplaced, fun entityId => (hkeys entityId).trans ?_⟩
        have hkey : entry.seed.anchorEntityId ∈ states.keys := OrderedMap.mem_keys.mpr ⟨existing, hget⟩
        rw [List.exists_mem_cons_iff]
        exact ⟨fun h => h.imp_right .inr,
          fun h => h.elim .inl fun h => h.elim (fun h => .inl (h ▸ hkey)) .inr⟩
      · have hset : ∀ entityId state, (states.set entry.seed.anchorEntityId merged).get? entityId = some state →
            state.entityId = entityId ∧ state.distance = 0 := by
          intro entityId state hget
          rw [OrderedMap.get?_set] at hget
          split at hget
          next heq =>
            cases hget
            refine ⟨?_, hmerged⟩
            rcases hplace with hplace | ⟨existing, hexisting, hplace⟩
            · exact hplace.trans heq
            · rw [hplace, (h _ existing hexisting).1]
              exact heq
          next => exact h entityId state hget
        obtain ⟨hplaced, hkeys⟩ := ih _ hset
        rw [hsome]
        refine ⟨hplaced, fun entityId => (hkeys entityId).trans ?_⟩
        rw [OrderedMap.mem_keys_set, List.exists_mem_cons_iff, eq_comm (a := entityId)]
        tauto

/-- The traversal of a basis reaches exactly what the facts lead to from the anchors. -/
theorem traverseBasis_ok {seeds : List PropagatingSeed} {uncertainties : Uncertainties} {after : Traversal}
    (h : traverseBasis basis seeds ir uncertainties = .ok after) :
    Traversed basis ir (Anchor basis seeds) after ∧
      (∀ value, Noted uncertainties value → Noted after.uncertainties value) ∧
      (Filed uncertainties → Filed after.uncertainties) ∧
      ∀ entityId, Anchor basis seeds entityId → entityId ∈ after.states.keys := by
  simp only [traverseBasis] at h
  obtain ⟨hplaced, hkeys⟩ := foldl_mergeSeeds (seeds.filter fun entry => entry.seed.basis = basis && entry.propagates)
    .empty (fun entityId state hget => by cases hget)
  set states := (seeds.filter fun entry => entry.seed.basis = basis && entry.propagates).foldl
    (fun (states : ReachStates) entry => (mergeReachState states (seedState entry.seed)).getD states) .empty
  have hanchor : ∀ entityId, entityId ∈ states.keys ↔ Anchor basis seeds entityId := by
    intro entityId
    rw [hkeys]
    simp [Anchor, and_assoc]
  have hbetween : Between basis ir (Anchor basis seeds) 0 ⟨states, uncertainties⟩ states.keys := by
    refine ⟨fun entityId state hget => ?_, fun entityId state hget _ => ?_, fun entityId hkey => ?_,
      fun entityId hkey => ?_, fun entityId hkey hnot => absurd hkey hnot⟩
    · obtain ⟨hid, hzero⟩ := hplaced entityId state hget
      exact ⟨hid, hzero.le⟩
    · exact (hanchor entityId).mp (OrderedMap.mem_keys.mpr ⟨state, hget⟩)
    · exact ⟨entityId, (hanchor entityId).mp hkey, .refl⟩
    · obtain ⟨state, hget⟩ := OrderedMap.mem_keys.mp hkey
      exact ⟨state, hget, hplaced entityId state hget⟩
  obtain ⟨htraversed, hgrows⟩ := traverseLayers_ok hbetween
    (fun _ => Nat.lt_succ_of_le (List.length_filter_le _ _)) h
  exact ⟨htraversed, hgrows.noted, hgrows.filed, fun entityId hentity => hgrows.keys _ ((hanchor entityId).mpr hentity)⟩

/-- Whatever the facts lead to from an anchor has a state. -/
theorem Traversed.closed {seeds : List PropagatingSeed} {after : Traversal}
    (h : Traversed basis ir (Anchor basis seeds) after)
    (hstart : ∀ entityId, Anchor basis seeds entityId → entityId ∈ after.states.keys) {anchor entityId : Text}
    (hanchor : Anchor basis seeds anchor) (hpath : Relation.ReflTransGen (Follows ir) anchor entityId) :
    entityId ∈ after.states.keys := by
  induction hpath with
  | refl => exact hstart anchor hanchor
  | tail _ hstep ih => exact (h.covered _ ih).followed _ hstep

end Basis

end SecPlatform.Compiler.SemanticImpact
