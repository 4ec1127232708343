import SecPlatform.Compiler.Resolve.Lemmas.Resolution

/-!
# What the resolver guarantees

A resolved graph holds the explicit entries and the packaged providers they need, free of conflicts. The
order of the inputs matters in two ways only: for which requirement is met while it still has several
providers, and for which of several equal explicit entries is kept.
-/

namespace SecPlatform.Compiler

open Selection Contracts

/-! ## Soundness -/

/-- The law of a resolved graph. -/
structure GraphLaw (explicitEntries catalog : List ManifestEntry) (graph : ResolvedGraph) : Prop where
  derived : ∃ selected, Derived explicitEntries catalog selected ∧ graph.entries.Perm selected
  satisfied : ∀ e ∈ graph.entries, Satisfied graph.entries e
  conflicts : NoConflicts graph.entries
  capabilities : ∀ c, c ∈ graph.capabilities ↔ ∃ e ∈ graph.entries, c ∈ e.manifest.provides
  sorted : graph.capabilities.Pairwise (· < ·)

/-- A resolution that succeeds returns a lawful graph. -/
theorem resolveManifestGraph_lawful {explicitEntries catalog : List ManifestEntry} {graph : ResolvedGraph}
    (h : resolveManifestGraph explicitEntries catalog = .ok graph) : GraphLaw explicitEntries catalog graph := by
  obtain ⟨start, s, h⟩ := resolveManifestGraph_eq_ok.mp h
  obtain ⟨hclosing, hclosed⟩ := h.selected.closing
  have hperm : graph.entries.Perm s.queue := h.selected.orderable.orderManifests_perm h.order
  have hmem : ∀ {P : ManifestEntry → Prop}, (∃ e ∈ graph.entries, P e) ↔ ∃ e ∈ s.queue, P e := by
    intro P
    exact exists_congr fun e => and_congr_left fun _ => hperm.mem_iff
  refine ⟨⟨s.queue, hclosing.derived, hperm⟩, fun e he => ?_, fun e he conflict hconflict => ?_, fun c => ?_, ?_⟩
  · exact (hclosed e (hperm.mem_iff.mp he)).mono hperm.symm.subset
  · obtain ⟨hid, hprovides⟩ := h.conflicts e (hperm.mem_iff.mp he) conflict hconflict
    exact ⟨fun hother => hid (hmem.mp hother), fun hother => hprovides (hmem.mp hother)⟩
  · rw [h.capabilities, hclosing.coherent.mem_capabilities]
    exact hmem.symm
  · rw [h.capabilities]
    have hnodup : (sortBy id s.selectedProviders.keys).Nodup :=
      (sortBy_perm _).nodup_iff.mpr s.selectedProviders.nodup_keys
    have hle : (sortBy id s.selectedProviders.keys).Pairwise fun a b => a ≤ b := sortBy_pairwise _
    exact (hle.and hnodup).imp fun ⟨hle, hne⟩ => lt_of_le_of_ne hle hne

/-! ## A packaged provider -/

def noDetails : ManifestDetails := ⟨[], rfl, by decide⟩

def blockEntry (id : String) (requires provides : List String) : ManifestEntry where
  registryResolution := none
  manifest :=
    { id := Text.ofString id, version := Text.ofString "1.0.0", kind := .capability
      requires := requires.map Text.ofString, provides := provides.map Text.ofString, conflicts := []
      details := noDetails }
  manifestPath := Text.ofString "block.manifest.yaml"
  manifestRoot := Text.ofString "/registry"
  resourceRoots := []
  registryRoot := Text.ofString "/registry"
  registrySourceId := Text.ofString "official"
  registryKind := .official
  registryLocation := .compiler
  registryPath := BUILTIN_OFFICIAL_REGISTRY_RELATIVE_PATH

def app : ManifestEntry := blockEntry "app" ["database"] ["app"]

def database : ManifestEntry := blockEntry "sqlite" [] ["database"]

def appGraph : ResolvedGraph := ⟨[database, app], [Text.ofString "app", Text.ofString "database"]⟩

theorem resolve_app : resolveManifestGraph [app] [app, database] = .ok appGraph := by
  with_unfolding_all rfl

theorem resolveManifestGraph_lawful_app : GraphLaw [app] [app, database] appGraph :=
  resolveManifestGraph_lawful resolve_app

/-! ## The order of the graph -/

/-- What the last step makes of a selection: its greedy order, or a failure at a cycle. -/
def OrderOutcome (entries : List ManifestEntry) : Resolving ResolvedGraph → Prop
  | .ok graph => GreedyOrder entries graph.entries ∧ ¬Cyclic entries
  | .error failure => (∃ blocked, failure = .cycle blocked) ∧ Cyclic entries

/-- A selection that is reached is ordered greedily unless it has a cycle, and no other failure is called a cycle. -/
theorem resolveManifestGraph_ordering (explicitEntries catalog : List ManifestEntry) :
    (∀ s, selectManifests explicitEntries catalog = .ok s →
      OrderOutcome s.queue (resolveManifestGraph explicitEntries catalog)) ∧
    (∀ failure, selectManifests explicitEntries catalog = .error failure →
      resolveManifestGraph explicitEntries catalog = .error failure ∧ ∀ blocked, failure ≠ .cycle blocked) := by
  rw [resolveManifestGraph_eq]
  constructor
  · intro s hs
    obtain ⟨start, hselected⟩ := selected_of_selectManifests hs
    have horderable := hselected.orderable
    rw [hs, ok_bind]
    rcases horderable.orderManifests_outcome with ⟨⟨ordered, hok⟩, hacyclic⟩ | ⟨⟨blocked, herror⟩, hcyclic⟩
    · rw [hok]
      exact ⟨horderable.greedyOrder hok, hacyclic⟩
    · rw [herror]
      exact ⟨⟨blocked, rfl⟩, hcyclic⟩
  · intro failure hfailure
    rw [hfailure]
    refine ⟨rfl, fun blocked heq => ?_⟩
    exact selectManifests_ne_cycle blocked (heq ▸ hfailure)

/-! ## The order of the inputs -/

/-- The outcomes of two resolutions agree. -/
def SameOutcome (R : ManifestEntry → ManifestEntry → Prop) : Resolving ResolvedGraph → Resolving ResolvedGraph → Prop
  | .ok graph, .ok graph' => SameGraph R graph graph'
  | .error _, .error _ => True
  | .ok _, .error _ | .error _, .ok _ => False

/-- Permuted inputs have the same outcome, unless one of the resolutions stops at a requirement that has
several providers at that moment. -/
theorem resolveManifestGraph_permuted {explicitEntries catalog explicitEntries' catalog' : List ManifestEntry}
    {order : ManifestEntry → List Text} (h : Reorders order (explicitEntries ++ catalog))
    (hexplicit : explicitEntries'.Perm (explicitEntries.map (ManifestEntry.reorder order)))
    (hcatalog : catalog'.Perm (catalog.map (ManifestEntry.reorder order))) :
    IsAmbiguous (resolveManifestGraph explicitEntries catalog) ∨
      IsAmbiguous (resolveManifestGraph explicitEntries' catalog') ∨
      SameOutcome (fun e e' => (e.reorder order).Same e') (resolveManifestGraph explicitEntries catalog)
        (resolveManifestGraph explicitEntries' catalog') := by
  have hall : (explicitEntries' ++ catalog').Perm ((explicitEntries ++ catalog).map (ManifestEntry.reorder order)) := by
    rw [List.map_append]
    exact hexplicit.append hcatalog
  have hdefinitions := h.consistentDefinitions_iff hall
  have hselections := h.consistentSelections_iff (List.subset_append_left _ _) hexplicit
  have hR := h.corresponds hexplicit hcatalog
  have hconsistent : ∀ {es cs : List ManifestEntry} {graph}, resolveManifestGraph es cs = .ok graph →
      ConsistentDefinitions (es ++ cs) ∧ ConsistentSelections es := by
    intro es cs graph hok
    obtain ⟨start, s, hresolution⟩ := resolveManifestGraph_eq_ok.mp hok
    exact ⟨hresolution.definitions, consistentSelections_of_explicit hresolution.selected.started⟩
  cases hfirst : resolveManifestGraph explicitEntries catalog with
  | ok graph =>
      obtain ⟨hd, hs⟩ := hconsistent hfirst
      rcases hR.resolve (hdefinitions.mpr hd) (hselections.mpr hs) hfirst with hstop | ⟨graph', hsecond, hsame⟩
      · exact .inr (.inl hstop)
      · refine .inr (.inr ?_)
        rw [hsecond]
        exact ⟨hsame.entries.imp fun _ _ hR => hR.2, hsame.capabilities⟩
  | error e =>
      cases hsecond : resolveManifestGraph explicitEntries' catalog' with
      | error e' => exact .inr (.inr trivial)
      | ok graph' =>
          obtain ⟨hd, hs⟩ := hconsistent hsecond
          rcases hR.symm.resolve (hdefinitions.mp hd) (hselections.mp hs) hsecond with hstop | ⟨graph, hok, -⟩
          · rw [hfirst] at hstop
            exact .inl hstop
          · rw [hfirst] at hok
            cases hok

theorem resolveManifestGraph_permuted_app :
    IsAmbiguous (resolveManifestGraph [app] [app, database]) ∨ IsAmbiguous (resolveManifestGraph [app] [database, app]) ∨
      SameOutcome (fun e e' => (e.reorder fun e => e.manifest.requires).Same e')
        (resolveManifestGraph [app] [app, database]) (resolveManifestGraph [app] [database, app]) :=
  resolveManifestGraph_permuted ⟨fun _ _ => .refl _, fun _ _ _ _ _ _ => Iff.rfl⟩ (.refl _) (.swap _ _ _)

/-! ## Where the order shows -/

/-- Requires a service that two blocks provide. -/
def reader : ManifestEntry := blockEntry "reader" ["read"] []

/-- Requires a service that only the wider of the two blocks provides. -/
def writer : ManifestEntry := blockEntry "writer" ["write"] []

def narrow : ManifestEntry := blockEntry "narrow" [] ["read"]

def wide : ManifestEntry := blockEntry "wide" [] ["read", "write"]

def pair : ManifestEntry := blockEntry "pair" ["read", "write"] ["read", "write"]

/-- The same block with its requirements in the other order. -/
def pairReordered : ManifestEntry := blockEntry "pair" ["write", "read"] ["read", "write"]

/-- The same block as another observation of the sources reports it. -/
def pairObserved : ManifestEntry := { pair with registryResolution := some ⟨[]⟩ }

/-- The reader finds two providers when it comes first, and a selected one when it comes second. A definition
listed twice must list its requirements in one order, and the first of two equal entries is kept. -/
theorem resolveManifestGraph_order_dependent :
    (resolveManifestGraph [reader, writer] [narrow, wide] =
        .error (.ambiguousProviders (Text.ofString "read") [narrow, wide]) ∧
      resolveManifestGraph [writer, reader] [narrow, wide] =
        .ok ⟨[wide, reader, writer], [Text.ofString "read", Text.ofString "write"]⟩) ∧
    (resolveManifestGraph [pair, pair] [] = .ok ⟨[pair], [Text.ofString "read", Text.ofString "write"]⟩ ∧
      resolveManifestGraph [pair, pairReordered] [] = .error (.conflictingDefinitions pair pairReordered)) ∧
    (resolveManifestGraph [pair, pairObserved] [] = .ok ⟨[pair], [Text.ofString "read", Text.ofString "write"]⟩ ∧
      resolveManifestGraph [pairObserved, pair] [] =
        .ok ⟨[pairObserved], [Text.ofString "read", Text.ofString "write"]⟩ ∧ pair ≠ pairObserved) := by
  refine ⟨⟨?_, ?_⟩, ⟨?_, ?_⟩, ?_, ?_, ?_⟩
  · with_unfolding_all rfl
  · with_unfolding_all rfl
  · with_unfolding_all rfl
  · with_unfolding_all rfl
  · with_unfolding_all rfl
  · with_unfolding_all rfl
  · intro h
    cases congrArg ManifestEntry.registryResolution h

end SecPlatform.Compiler
