import SecPlatform.Compiler.Resolve.Lemmas.Selection
import SecPlatform.Compiler.Resolve.Lemmas.Schedule

/-!
# The order of a selection

In a selection whose requirements are provided, the graph has an edge from each provider to each consumer,
and the loop orders a permutation of the selection unless it stops at a cycle.
-/

namespace SecPlatform.Compiler

theorem filterMap_range {α : Type} (xs : List α) : (List.range xs.length).filterMap (xs[·]?) = xs := by
  induction xs using List.reverseRecOn with
  | nil => rfl
  | append_singleton xs x ih =>
      rw [List.length_append, List.length_singleton, List.range_succ, List.filterMap_append]
      have hinit : (List.range xs.length).filterMap ((xs ++ [x])[·]?) = (List.range xs.length).filterMap (xs[·]?) := by
        refine List.filterMap_congr fun i hi => ?_
        exact List.getElem?_append_left (List.mem_range.mp hi)
      rw [hinit, ih]
      simp

/-- Whether the entry at one rank provides something that the entry at another rank requires. -/
def dependsOn (ranked : List ManifestEntry) (p r : Nat) : Bool :=
  match ranked[p]?, ranked[r]? with
  | some provider, some consumer =>
      decide (p ≠ r) && consumer.manifest.requires.any fun c => c ∈ provider.manifest.provides
  | _, _ => false

theorem dependsOn_iff {ranked : List ManifestEntry} {p r : Nat} :
    dependsOn ranked p r ↔ p ≠ r ∧ ∃ provider consumer, ranked[p]? = some provider ∧ ranked[r]? = some consumer ∧
      ∃ c ∈ consumer.manifest.requires, c ∈ provider.manifest.provides := by
  unfold dependsOn
  cases ranked[p]? <;> cases ranked[r]? <;> simp

/-- The selection is indexed, its blocks differ, and what they require is provided. -/
structure Orderable (entries : List ManifestEntry) (providers : Providers) : Prop where
  indexes : Indexes providers entries
  ids : (entries.map fun e => e.manifest.id).Nodup
  satisfied : ∀ e ∈ entries, Satisfied entries e

namespace Orderable

variable {entries : List ManifestEntry} {providers : Providers}

/-- The entries by rank. -/
abbrev ranked (entries : List ManifestEntry) : List ManifestEntry := sortBy rankKey entries

theorem ranked_ids (h : Orderable entries providers) : ((ranked entries).map fun e => e.manifest.id).Nodup :=
  ((sortBy_perm entries).map _).nodup_iff.mpr h.ids

theorem get?_rankById (h : Orderable entries providers) {e : ManifestEntry} {k : Nat}
    (hk : (ranked entries)[k]? = some e) :
    (OrderedMap.ofList ((ranked entries).zipIdx.map fun e => (e.1.manifest.id, e.2))).get? e.manifest.id = some k := by
  have hkeys : (((ranked entries).zipIdx.map fun e => (e.1.manifest.id, e.2)).map Prod.fst).Nodup := by
    rw [List.map_map]
    have hfst : (Prod.fst ∘ fun e : ManifestEntry × Nat => (e.1.manifest.id, e.2)) =
        (fun e => e.manifest.id) ∘ Prod.fst := rfl
    rw [hfst, ← List.map_map, List.zipIdx_map_fst]
    exact h.ranked_ids
  rw [OrderedMap.get?_ofList hkeys, OrderedMap.find_eq_some hkeys]
  exact List.mem_map.mpr ⟨(e, k), List.mem_zipIdx_iff_getElem?.mpr hk, rfl⟩

/-- The edges in the order in which they are added. -/
def edges (entries : List ManifestEntry) (providers : Providers) : List (Nat × Nat) :=
  let rankById := OrderedMap.ofList ((ranked entries).zipIdx.map fun e => (e.1.manifest.id, e.2))
  (ranked entries).zipIdx.flatMap fun e => e.1.manifest.requires.eraseDups.flatMap fun c =>
    ((providers.get? c).getD []).flatMap fun p => [((rankById.get? p.manifest.id).getD 0, e.2)]

theorem mem_edges (h : Orderable entries providers) {p r : Nat} :
    (p, r) ∈ edges entries providers ↔ ∃ provider consumer, (ranked entries)[p]? = some provider ∧
      (ranked entries)[r]? = some consumer ∧ ∃ c ∈ consumer.manifest.requires, c ∈ provider.manifest.provides := by
  simp only [edges, List.mem_flatMap, List.mem_eraseDups, h.indexes.getD, mem_providersOf, List.mem_singleton,
    Prod.mk.injEq, Prod.exists, List.mem_zipIdx_iff_getElem?]
  constructor
  · rintro ⟨consumer, k, hk, c, hc, provider, ⟨hmem, hprovides⟩, hp, rfl⟩
    obtain ⟨q, hq⟩ := List.mem_iff_getElem?.mp (mem_sortBy.mpr hmem : provider ∈ ranked entries)
    rw [h.get?_rankById hq, Option.getD_some] at hp
    exact ⟨provider, consumer, hp ▸ hq, hk, c, hc, hprovides⟩
  · rintro ⟨provider, consumer, hp, hr, c, hc, hprovides⟩
    refine ⟨consumer, r, hr, c, hc, provider, ⟨mem_sortBy.mp (List.mem_of_getElem? hp), hprovides⟩, ?_, rfl⟩
    rw [h.get?_rankById hp, Option.getD_some]

theorem edges_sorted : (edges entries providers).Pairwise fun d e => d.2 ≤ e.2 := by
  have hsnd : ∀ {e : ManifestEntry × Nat} {x : Nat × Nat}, x ∈ (e.1.manifest.requires.eraseDups.flatMap fun c =>
      ((providers.get? c).getD []).flatMap fun p => [(((OrderedMap.ofList ((ranked entries).zipIdx.map fun e =>
        (e.1.manifest.id, e.2))).get? p.manifest.id).getD 0, e.2)]) → x.2 = e.2 := by
    intro e x hx
    simp only [List.mem_flatMap, List.mem_singleton] at hx
    obtain ⟨_, _, _, _, rfl⟩ := hx
    rfl
  have hzip : (ranked entries).zipIdx.Pairwise fun d e => d.2 < e.2 := by
    rw [← List.pairwise_map, List.zipIdx_map_snd]
    exact List.pairwise_lt_range'
  refine List.pairwise_flatMap.mpr ⟨fun e _ => ?_, hzip.imp fun hlt x hx y hy => ?_⟩
  · exact List.pairwise_of_forall_mem_list fun x hx y hy => (hsnd hx).trans (hsnd hy).symm |>.le
  · rw [hsnd hx, hsnd hy]
    exact hlt.le

/-- The graph of the selection. -/
theorem dependencyGraph_eq (h : Orderable entries providers) :
    dependencyGraph (ranked entries) providers = .ok (graphOf entries.length (dependsOn (ranked entries))) := by
  have hlength : (ranked entries).length = entries.length := length_sortBy _
  have hrange : ∀ e ∈ edges entries providers, e.1 < entries.length ∧ e.2 < entries.length := by
    rintro ⟨p, r⟩ he
    obtain ⟨_, _, hp, hr, _⟩ := h.mem_edges.mp he
    rw [← hlength]
    exact ⟨(List.getElem?_eq_some_iff.mp hp).1, (List.getElem?_eq_some_iff.mp hr).1⟩
  have hloop : dependencyGraph (ranked entries) providers =
      .ok ((edges entries providers).foldl (fun g e => g.addEdge e.1 e.2) (graphOf entries.length fun _ _ => false)) := by
    unfold dependencyGraph
    rw [← graphOf_empty hlength]
    refine foldlM_eq_flatMap (fun e he graph => ?_) _
    refine foldlM_eq_flatMap (fun c hc graph => ?_) _
    have hconsumer : e.1 ∈ entries := mem_sortBy.mp (List.mem_of_getElem? (List.mem_zipIdx_iff_getElem?.mp he))
    obtain ⟨q, hq, hprovides⟩ := h.satisfied e.1 hconsumer c (List.mem_eraseDups.mp hc)
    unfold addRequirement
    rw [h.indexes.getD]
    have hsome : providersOf c entries ≠ [] := List.ne_nil_of_mem (mem_providersOf.mpr ⟨hq, hprovides⟩)
    split
    · rename_i hnil
      exact absurd hnil hsome
    · refine foldlM_eq_flatMap (fun p hp graph => ?_) _
      obtain ⟨k, hk⟩ := List.mem_iff_getElem?.mp (mem_sortBy.mpr (mem_providersOf.mp hp).1 : p ∈ ranked entries)
      rw [addPredecessor, h.get?_rankById hk]
      rfl
  rw [hloop, foldl_addEdge hrange edges_sorted]
  congr 2
  funext p r
  rw [Bool.eq_iff_iff, decide_eq_true_eq, h.mem_edges, dependsOn_iff, and_comm]

/-- The ranks in the order in which the loop takes them. -/
def orderedRanks (entries : List ManifestEntry) : List Nat :=
  let graph := graphOf entries.length (dependsOn (ranked entries))
  ((Schedule.start graph.indegree).run graph.adjacency entries.length).ordered

theorem scheduled (entries : List ManifestEntry) :
    (orderedRanks entries).Nodup ∧ ∀ r ∈ orderedRanks entries, r < entries.length := by
  have hfinal := (scheduled_start entries.length (dependsOn (ranked entries))).run entries.length
  exact ⟨(List.nodup_append.mp hfinal.nodup).1, fun r hr => ((hfinal.mem r).mp (List.mem_append_left _ hr)).1⟩

/-- The order is that of the ranks, when all of them are ordered. -/
theorem orderManifests_eq_ok (h : Orderable entries providers) {ordered : List ManifestEntry} :
    orderManifests entries providers = .ok ordered ↔
      (orderedRanks entries).length = entries.length ∧
        ordered = (orderedRanks entries).filterMap ((ranked entries)[·]?) := by
  have hlength : (ranked entries).length = entries.length := length_sortBy _
  unfold orderManifests
  dsimp only
  rw [h.dependencyGraph_eq, ok_bind, hlength]
  change (if (orderedRanks entries).length ≠ entries.length then _ else _) = _ ↔ _
  split
  · rename_i hne
    simp [hne]
  · rename_i heq
    rw [not_not] at heq
    simp only [heq, true_and, pure_eq_ok, Except.ok.injEq]
    exact eq_comm

/-- The order is a permutation of the selection. -/
theorem orderManifests_perm (h : Orderable entries providers) {ordered : List ManifestEntry}
    (hok : orderManifests entries providers = .ok ordered) : ordered.Perm entries := by
  obtain ⟨hlength, rfl⟩ := h.orderManifests_eq_ok.mp hok
  obtain ⟨hnodup, hlt⟩ := scheduled entries
  have hranks : (orderedRanks entries).Perm (List.range entries.length) := by
    have hsub : orderedRanks entries ⊆ List.range entries.length := fun r hr => List.mem_range.mpr (hlt r hr)
    exact (hnodup.subperm hsub).perm_of_length_le (by rw [hlength, List.length_range])
  have hall : (List.range entries.length).filterMap ((ranked entries)[·]?) = ranked entries := by
    have hlen : (ranked entries).length = entries.length := length_sortBy _
    rw [← hlen]
    exact filterMap_range (ranked entries)
  exact (hranks.filterMap _).trans ((List.Perm.of_eq hall).trans (sortBy_perm entries))

end Orderable

/-! ## The order in terms of the entries -/

/-- Another entry of the selection provides something that the entry requires. -/
def Provides (entries : List ManifestEntry) (provider consumer : ManifestEntry) : Prop :=
  provider ∈ entries ∧ consumer ∈ entries ∧ provider ≠ consumer ∧
    ∃ c ∈ consumer.manifest.requires, c ∈ provider.manifest.provides

/-- Some entry provides for itself through other entries. -/
def Cyclic (entries : List ManifestEntry) : Prop :=
  ∃ e, Relation.TransGen (Provides entries) e e

/-- The entries, each once, behind their providers and before any entry of a greater rank that could have stood
in their place. -/
structure GreedyOrder (entries ordered : List ManifestEntry) : Prop where
  perm : ordered.Perm entries
  step : ∀ before e after, ordered = before ++ e :: after →
    (∀ p, Provides entries p e → p ∈ before) ∧
      ∀ e' ∈ entries, e' ∉ before → (∀ p, Provides entries p e' → p ∈ before) → rankKey e ≤ rankKey e'

namespace Orderable

variable {entries : List ManifestEntry} {providers : Providers}

theorem mem_iff_ranked {e : ManifestEntry} : e ∈ entries ↔ ∃ r : Nat, (ranked entries)[r]? = some e := by
  rw [← List.mem_iff_getElem?]
  exact mem_sortBy.symm

theorem lt_of_ranked {r : Nat} {e : ManifestEntry} (hr : (ranked entries)[r]? = some e) : r < entries.length := by
  have hlength : (ranked entries).length = entries.length := length_sortBy _
  rw [← hlength]
  exact (List.getElem?_eq_some_iff.mp hr).1

theorem exists_ranked {r : Nat} (hr : r < entries.length) : ∃ e, (ranked entries)[r]? = some e := by
  have hlength : (ranked entries).length = entries.length := length_sortBy _
  rw [← hlength] at hr
  exact ⟨(ranked entries).get ⟨r, hr⟩, List.getElem?_eq_getElem hr⟩

/-- The blocks differ, so an entry has one rank. -/
theorem rank_unique (h : Orderable entries providers) {q r : Nat} {e : ManifestEntry}
    (hq : (ranked entries)[q]? = some e) (hr : (ranked entries)[r]? = some e) : q = r := by
  have hnodup : (ranked entries).Nodup := h.ranked_ids.of_map _
  exact (List.getElem?_inj (List.getElem?_eq_some_iff.mp hq).1 hnodup).mp (hq.trans hr.symm)

/-- The ranks follow the rank keys. -/
theorem rankKey_le {q r : Nat} (hqr : q ≤ r) {e e' : ManifestEntry} (hq : (ranked entries)[q]? = some e)
    (hr : (ranked entries)[r]? = some e') : rankKey e ≤ rankKey e' := by
  obtain ⟨hqlt, rfl⟩ := List.getElem?_eq_some_iff.mp hq
  obtain ⟨hrlt, rfl⟩ := List.getElem?_eq_some_iff.mp hr
  have hsorted : (ranked entries).Pairwise fun a b => rankKey a ≤ rankKey b := sortBy_pairwise _
  rcases Nat.lt_or_eq_of_le hqr with hlt | rfl
  · exact List.pairwise_iff_getElem.mp hsorted q r hqlt hrlt hlt
  · exact le_refl _

/-- The edges of the graph lead from a provider to a consumer. -/
theorem provides_iff (h : Orderable entries providers) {p r : Nat} {provider consumer : ManifestEntry}
    (hp : (ranked entries)[p]? = some provider) (hr : (ranked entries)[r]? = some consumer) :
    Provides entries provider consumer ↔ dependsOn (ranked entries) p r := by
  have hne : provider ≠ consumer ↔ p ≠ r := by
    refine not_congr ⟨fun heq => h.rank_unique (heq ▸ hp) hr, fun heq => ?_⟩
    subst heq
    exact Option.some_inj.mp (hp.symm.trans hr)
  rw [dependsOn_iff, Provides, hne]
  constructor
  · rintro ⟨-, -, hpr, hc⟩
    exact ⟨hpr, provider, consumer, hp, hr, hc⟩
  · rintro ⟨hpr, _, _, hp', hr', hc⟩
    cases hp.symm.trans hp'
    cases hr.symm.trans hr'
    exact ⟨mem_iff_ranked.mpr ⟨p, hp⟩, mem_iff_ranked.mpr ⟨r, hr⟩, hpr, hc⟩

/-- A rank has no pending predecessor when the providers of its entry stand before it. -/
theorem pending_eq_empty_iff (h : Orderable entries providers) (ranks : List Nat) {r : Nat} {e : ManifestEntry}
    (hr : (ranked entries)[r]? = some e) :
    pending entries.length (dependsOn (ranked entries)) ranks r = ∅ ↔
      ∀ p, Provides entries p e → p ∈ ranks.filterMap ((ranked entries)[·]?) := by
  constructor
  · intro hempty provider hprovides
    obtain ⟨p, hp⟩ := mem_iff_ranked.mp hprovides.1
    by_contra hnot
    have hmem : p ∈ pending entries.length (dependsOn (ranked entries)) ranks r :=
      mem_pending.mpr ⟨lt_of_ranked hp, (h.provides_iff hp hr).mp hprovides,
        fun hin => hnot (List.mem_filterMap.mpr ⟨p, hin, hp⟩)⟩
    rw [hempty] at hmem
    exact Finset.notMem_empty _ hmem
  · intro hbefore
    refine Finset.eq_empty_of_forall_notMem fun p hmem => ?_
    obtain ⟨hlt, hedge, hnot⟩ := mem_pending.mp hmem
    obtain ⟨provider, hp⟩ := exists_ranked hlt
    obtain ⟨q, hq, hget⟩ := List.mem_filterMap.mp (hbefore provider ((h.provides_iff hp hr).mpr hedge))
    exact hnot (h.rank_unique hget hp ▸ hq)

/-- The order of the ranks is the order of the entries. -/
theorem greedyOrder (h : Orderable entries providers) {ordered : List ManifestEntry}
    (hok : orderManifests entries providers = .ok ordered) : GreedyOrder entries ordered := by
  refine ⟨h.orderManifests_perm hok, fun before e after hsplit => ?_⟩
  obtain ⟨-, rfl⟩ := h.orderManifests_eq_ok.mp hok
  have hgreedy : Greedy entries.length (dependsOn (ranked entries)) (orderedRanks entries) :=
    (scheduled_start _ _).run_greedy (isHeap_start _) greedy_nil _
  obtain ⟨front, back, hranks, rfl, hback⟩ := List.filterMap_eq_append_iff.mp hsplit
  obtain ⟨skipped, r, rest, rfl, hskipped, hr, -⟩ := List.filterMap_eq_cons_iff.mp hback
  have hsame : (front ++ skipped).filterMap ((ranked entries)[·]?) = front.filterMap ((ranked entries)[·]?) := by
    rw [List.filterMap_append, List.filterMap_eq_nil_iff.mpr hskipped, List.append_nil]
  obtain ⟨hfree, hleast⟩ := hgreedy (front ++ skipped) r rest (by rw [hranks, List.append_assoc])
  refine ⟨hsame ▸ (h.pending_eq_empty_iff _ hr).mp hfree, fun e' he' hnot hproviders => ?_⟩
  obtain ⟨r', hr'⟩ := mem_iff_ranked.mp he'
  refine rankKey_le (hleast r' (lt_of_ranked hr') (fun hin => ?_) ?_) hr hr'
  · exact hnot (hsame ▸ List.mem_filterMap.mpr ⟨r', hin, hr'⟩)
  · exact (h.pending_eq_empty_iff _ hr').mpr (hsame.symm ▸ hproviders)

theorem reaches_iff (h : Orderable entries providers) {p r : Nat} {e e' : ManifestEntry}
    (hp : (ranked entries)[p]? = some e) (hr : (ranked entries)[r]? = some e') :
    Relation.TransGen (Provides entries) e e' ↔ Reaches entries.length (dependsOn (ranked entries)) p r := by
  constructor
  · intro hpath
    induction hpath generalizing r with
    | single hedge => exact .single ⟨lt_of_ranked hp, lt_of_ranked hr, (h.provides_iff hp hr).mp hedge⟩
    | tail _ hedge ih =>
        obtain ⟨q, hq⟩ := mem_iff_ranked.mp hedge.1
        exact .tail (ih hq) ⟨lt_of_ranked hq, lt_of_ranked hr, (h.provides_iff hq hr).mp hedge⟩
  · intro hpath
    induction hpath generalizing e' with
    | single hedge => exact .single ((h.provides_iff hp hr).mpr hedge.2.2)
    | tail _ hedge ih =>
        obtain ⟨q, hq⟩ := exists_ranked hedge.1
        exact .tail (ih hq) ((h.provides_iff hq hr).mpr hedge.2.2)

theorem cyclic_iff (h : Orderable entries providers) :
    Cyclic entries ↔ ∃ r < entries.length, Reaches entries.length (dependsOn (ranked entries)) r r := by
  constructor
  · rintro ⟨e, hpath⟩
    obtain ⟨_, -, hlast⟩ := Relation.TransGen.tail'_iff.mp hpath
    obtain ⟨r, hr⟩ := mem_iff_ranked.mp hlast.2.1
    exact ⟨r, lt_of_ranked hr, (h.reaches_iff hr hr).mp hpath⟩
  · rintro ⟨r, hlt, hpath⟩
    obtain ⟨e, hr⟩ := exists_ranked hlt
    exact ⟨e, (h.reaches_iff hr hr).mpr hpath⟩

/-- The order is found unless there is a cycle. -/
theorem orderManifests_outcome (h : Orderable entries providers) :
    ((∃ ordered, orderManifests entries providers = .ok ordered) ∧ ¬Cyclic entries) ∨
      (∃ blocked, orderManifests entries providers = .error (.cycle blocked)) ∧ Cyclic entries := by
  have hlength : (ranked entries).length = entries.length := length_sortBy _
  have hiff : (orderedRanks entries).length = entries.length ↔ ¬Cyclic entries := by
    rw [h.cyclic_iff]
    exact length_ordered_iff _ _
  by_cases hcyclic : Cyclic entries
  · refine .inr ⟨?_, hcyclic⟩
    have hne : (orderedRanks entries).length ≠ entries.length := fun heq => hiff.mp heq hcyclic
    unfold orderManifests
    dsimp only
    rw [h.dependencyGraph_eq, ok_bind, hlength]
    exact ⟨_, if_pos hne⟩
  · exact .inl ⟨⟨_, h.orderManifests_eq_ok.mpr ⟨hiff.mpr hcyclic, rfl⟩⟩, hcyclic⟩

end Orderable

end SecPlatform.Compiler
