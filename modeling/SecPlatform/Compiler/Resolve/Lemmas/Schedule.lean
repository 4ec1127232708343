import SecPlatform.Compiler.Resolve.Lemmas.ReadyRanks
import Mathlib.Data.Finset.Card
import Mathlib.Data.Fintype.Card
import Mathlib.Data.Set.Finite.Basic
import Mathlib.Order.WellFounded

/-!
# The schedule of a graph

The graph of an edge relation on the ranks below `n`, and what the loop over its ready ranks keeps: an
indegree counts the predecessors that are not ordered yet, and the ranks without such predecessors are
ordered or ready, each once.
-/

namespace SecPlatform.Compiler

/-! ## The graph of a relation -/

/-- The graph with the given edges between the ranks below `n`. -/
def graphOf (n : Nat) (edge : Nat → Nat → Bool) : DependencyGraph where
  adjacency := (List.range n).map fun p => (List.range n).filter (edge p)
  indegree := (List.range n).map fun r => ((Finset.range n).filter fun p => edge p r).card

theorem getD_map_range {α : Type} (f : Nat → α) {n i : Nat} (hi : i < n) (d : α) :
    ((List.range n).map f).getD i d = f i := by
  rw [List.getD_eq_getElem?_getD, List.getElem?_map, List.getElem?_range hi]
  rfl

theorem modify_map_range {α : Type} (f : Nat → α) (g : α → α) (n i : Nat) :
    ((List.range n).map f).modify i g = (List.range n).map fun j => if i = j then g (f j) else f j := by
  apply List.ext_getElem?
  intro j
  rw [List.getElem?_modify]
  by_cases hj : j < n
  · simp [hj]
  · simp [Nat.le_of_not_lt hj]

/-- The graph without edges. -/
theorem graphOf_empty {n : Nat} {xs : List ManifestEntry} (h : xs.length = n) :
    graphOf n (fun _ _ => false) = { adjacency := xs.map fun _ => [], indegree := xs.map fun _ => 0 } := by
  subst h
  have hconst : ∀ {α : Type} (a : α), (List.range xs.length).map (fun _ => a) = xs.map fun _ => a := by
    intro α a
    rw [List.map_const', List.map_const', List.length_range]
  simp [graphOf, hconst]

theorem filter_range_snoc {n k : Nat} {f : Nat → Bool} (hk : k < n) (hlast : ∀ r, f r → r < k) :
    (List.range n).filter (fun r => f r || k = r) = (List.range n).filter f ++ [k] := by
  have hsorted : (List.range n).Pairwise (· < ·) := List.pairwise_lt_range
  refine (hsorted.filter _).eq_of_mem_iff (List.pairwise_append.mpr ⟨hsorted.filter _, List.pairwise_singleton _ _, ?_⟩)
    fun r => ?_
  · intro a ha b hb
    rw [List.mem_singleton.mp hb]
    exact hlast a (List.mem_filter.mp ha).2
  · simp only [List.mem_filter, List.mem_range, Bool.or_eq_true, decide_eq_true_eq, List.mem_append, List.mem_singleton]
    constructor
    · rintro ⟨hr, h | rfl⟩
      · exact .inl ⟨hr, h⟩
      · exact .inr rfl
    · rintro (⟨hr, h⟩ | rfl)
      · exact ⟨hr, .inl h⟩
      · exact ⟨hk, .inr rfl⟩

/-- A new edge into the greatest rank so far. -/
theorem addEdge_graphOf {n p k : Nat} {edge : Nat → Nat → Bool} (hp : p < n) (hk : k < n)
    (hlast : ∀ r, edge p r → r ≤ k) :
    (graphOf n edge).addEdge p k = graphOf n fun q r => edge q r || (decide (p = q ∧ k = r) && decide (p ≠ k)) := by
  have hadjacency : (graphOf n edge).adjacency.getD p [] = (List.range n).filter (edge p) := getD_map_range _ hp _
  have hmem : k ∈ (List.range n).filter (edge p) ↔ edge p k := by simp [hk]
  unfold DependencyGraph.addEdge
  rw [hadjacency]
  by_cases hself : p = k
  · simp [hself]
  by_cases hedge : edge p k
  · rw [if_pos (.inr (hmem.mpr hedge))]
    congr 1
    funext q r
    by_cases hqr : p = q ∧ k = r
    · obtain ⟨rfl, rfl⟩ := hqr
      simp [hedge]
    · simp [hqr]
  · rw [if_neg (by simp [hself, hk, hedge])]
    have hlt : ∀ r, edge p r → r < k := fun r hr => lt_of_le_of_ne (hlast r hr) fun h => hedge (h ▸ hr)
    simp only [graphOf, modify_map_range, DependencyGraph.mk.injEq]
    constructor
    · refine List.map_congr_left fun q _ => ?_
      by_cases hq : p = q
      · subst hq
        simp only [if_true, true_and, hself, ne_eq, not_false_eq_true, decide_true, Bool.and_true]
        exact (filter_range_snoc hk hlt).symm
      · simp [hq]
    · refine List.map_congr_left fun r _ => ?_
      by_cases hr : k = r
      · subst hr
        have hins : ((Finset.range n).filter fun q => edge q k || (decide (p = q ∧ k = k) && decide (p ≠ k))) =
            insert p ((Finset.range n).filter fun q => edge q k) := by
          ext q
          simp only [Finset.mem_filter, Finset.mem_range, Finset.mem_insert, Bool.or_eq_true, Bool.and_eq_true,
            decide_eq_true_eq, and_true]
          constructor
          · rintro ⟨hq, h | ⟨rfl, -⟩⟩
            · exact .inr ⟨hq, h⟩
            · exact .inl rfl
          · rintro (rfl | ⟨hq, h⟩)
            · exact ⟨hp, .inr ⟨rfl, hself⟩⟩
            · exact ⟨hq, .inl h⟩
        rw [hins, Finset.card_insert_of_notMem (by simp [hedge]), if_pos rfl]
      · simp [hr]

/-- Edges added in the order of their dependents make up the graph of the list. -/
theorem foldl_addEdge {n : Nat} {edges : List (Nat × Nat)} (hrange : ∀ e ∈ edges, e.1 < n ∧ e.2 < n)
    (hsorted : edges.Pairwise fun d e => d.2 ≤ e.2) :
    edges.foldl (fun g e => g.addEdge e.1 e.2) (graphOf n fun _ _ => false) =
      graphOf n fun p r => (p, r) ∈ edges ∧ p ≠ r := by
  induction edges using List.reverseRecOn with
  | nil => simp
  | append_singleton edges e ih =>
      obtain ⟨p, k⟩ := e
      obtain ⟨hsorted, -, hle⟩ := List.pairwise_append.mp hsorted
      have hpk := hrange (p, k) (by simp)
      rw [List.foldl_append, ih (fun e he => hrange e (List.mem_append_left _ he)) hsorted, List.foldl_cons, List.foldl_nil,
        addEdge_graphOf hpk.1 hpk.2]
      · congr 1
        funext q r
        by_cases hqr : p = q ∧ k = r
        · obtain ⟨rfl, rfl⟩ := hqr
          by_cases hself : p = k <;> simp [hself]
        · have hne : (q, r) ≠ (p, k) := fun h => hqr (by simpa [eq_comm] using h)
          simp [hqr, hne]
      · intro r hr
        simp only [decide_eq_true_eq] at hr
        exact hle (p, r) hr.1 (p, k) (by simp)

/-! ## The loop -/

section Loop

variable {n : Nat} {edge : Nat → Nat → Bool}

/-- The predecessors of a rank that are not ordered yet. -/
def pending (n : Nat) (edge : Nat → Nat → Bool) (ordered : List Nat) (rank : Nat) : Finset Nat :=
  (Finset.range n).filter fun p => edge p rank ∧ p ∉ ordered

theorem mem_pending {ordered : List Nat} {rank p : Nat} :
    p ∈ pending n edge ordered rank ↔ p < n ∧ edge p rank ∧ p ∉ ordered := by simp [pending]

theorem pending_snoc (ordered : List Nat) (rank r : Nat) :
    pending n edge (ordered ++ [rank]) r = (pending n edge ordered r).erase rank := by
  ext p
  simp only [mem_pending, List.mem_append, List.mem_singleton, Finset.mem_erase]
  tauto

/-- What holds of the loop: the indegrees count, and the ranks without a pending predecessor are ordered or
ready, each once. -/
structure Scheduled (n : Nat) (edge : Nat → Nat → Bool) (s : Schedule) : Prop where
  indegree : s.indegree = (List.range n).map fun r => (pending n edge s.ordered r).card
  nodup : (s.ordered ++ s.ready.ranks).Nodup
  mem : ∀ r, r ∈ s.ordered ++ s.ready.ranks ↔ r < n ∧ pending n edge s.ordered r = ∅

theorem scheduled_start (n : Nat) (edge : Nat → Nat → Bool) : Scheduled n edge (.start (graphOf n edge).indegree) := by
  have hpending : ∀ r, pending n edge [] r = (Finset.range n).filter fun p => edge p r := by simp [pending]
  have hready : (Schedule.start (graphOf n edge).indegree).ready.ranks.Perm
      ((List.range n).filter fun r => (graphOf n edge).indegree.getD r 0 = 0) := by
    have hlength : (graphOf n edge).indegree.length = n := by simp [graphOf]
    rw [Schedule.start, hlength]
    exact ReadyRanks.foldl_add_perm ⟨[]⟩ _
  refine ⟨?_, ?_, fun r => ?_⟩
  · refine List.map_congr_left fun r _ => ?_
    rw [Schedule.start, hpending]
  · exact hready.nodup_iff.mpr (List.nodup_range.filter _)
  · rw [Schedule.start, List.nil_append]
    refine (hready.mem_iff).trans ?_
    rw [List.mem_filter, List.mem_range, decide_eq_true_eq]
    refine and_congr_right fun hr => ?_
    rw [graphOf, getD_map_range _ hr, Finset.card_eq_zero, hpending]

/-- Releasing dependents lowers their indegrees and adds those that reach zero to the ready ranks. -/
theorem foldl_release {dependents : List Nat} (hnodup : dependents.Nodup) (hlt : ∀ d ∈ dependents, d < n) {s : Schedule}
    {f : Nat → Nat} (hs : s.indegree = (List.range n).map f) :
    (dependents.foldl Schedule.release s).ordered = s.ordered ∧
      (dependents.foldl Schedule.release s).indegree =
        (List.range n).map (fun r => if r ∈ dependents then f r - 1 else f r) ∧
      (dependents.foldl Schedule.release s).ready.ranks.Perm
        (s.ready.ranks ++ dependents.filter fun d => f d - 1 = 0) := by
  induction dependents generalizing s f with
  | nil => simpa using hs
  | cons d dependents ih =>
      obtain ⟨hd, hnodup⟩ := List.nodup_cons.mp hnodup
      have hdn := hlt d List.mem_cons_self
      have hindegree : (s.release d).indegree = (List.range n).map fun r => if d = r then f r - 1 else f r := by
        rw [Schedule.release, hs]
        exact modify_map_range f (· - 1) n d
      have hready : (s.release d).ready.ranks.Perm (s.ready.ranks ++ if f d - 1 = 0 then [d] else []) := by
        have hget : (s.indegree.modify d (· - 1)).getD d 0 = f d - 1 := by
          rw [hs, modify_map_range, getD_map_range _ hdn, if_pos rfl]
        simp only [Schedule.release, hget]
        split
        · exact (ReadyRanks.add_perm _ _).trans (List.perm_append_singleton _ _).symm
        · simp
      obtain ⟨hordered, hin, hranks⟩ := ih hnodup (fun r hr => hlt r (List.mem_cons_of_mem _ hr)) hindegree
      refine ⟨hordered, ?_, ?_⟩
      · rw [List.foldl_cons, hin]
        refine List.map_congr_left fun r _ => ?_
        by_cases hdr : d = r
        · subst hdr
          simp [hd]
        · simp [hdr, Ne.symm hdr]
      · have hsame : (dependents.filter fun r => (if d = r then f r - 1 else f r) - 1 = 0) =
            dependents.filter fun r => f r - 1 = 0 := by
          refine List.filter_congr fun r hr => ?_
          rw [if_neg (ne_of_mem_of_not_mem hr hd).symm]
        rw [hsame] at hranks
        refine hranks.trans ((hready.append_right _).trans (.of_eq ?_))
        rw [List.append_assoc, List.filter_cons]
        by_cases hzero : f d - 1 = 0 <;> simp [hzero]

/-- Ordering the first ready rank. -/
theorem Scheduled.turn {s : Schedule} (h : Scheduled n edge s) {rank : Nat} {ready : ReadyRanks}
    (htake : s.ready.take = some (rank, ready)) :
    Scheduled n edge (((graphOf n edge).adjacency.getD rank []).foldl Schedule.release
      { s with ready, ordered := s.ordered ++ [rank] }) := by
  have hperm := ReadyRanks.take_perm htake
  have hnodup : (s.ordered ++ rank :: ready.ranks).Nodup := ((hperm.append_left _).nodup_iff).mp h.nodup
  have hmem : ∀ r, r ∈ s.ordered ++ rank :: ready.ranks ↔ r < n ∧ pending n edge s.ordered r = ∅ :=
    fun r => ((hperm.append_left _).mem_iff.symm).trans (h.mem r)
  obtain ⟨hrank, hfree⟩ := (hmem rank).mp (by simp)
  have hnot : rank ∉ s.ordered := fun hin => (List.nodup_append.mp hnodup).2.2 rank hin rank List.mem_cons_self rfl
  have hadjacency : (graphOf n edge).adjacency.getD rank [] = (List.range n).filter (edge rank) := getD_map_range _ hrank _
  rw [hadjacency]
  have hindegree : ({ s with ready, ordered := s.ordered ++ [rank] } : Schedule).indegree =
      (List.range n).map fun r => (pending n edge s.ordered r).card := h.indegree
  obtain ⟨hordered, hindegree, hranks⟩ := foldl_release (List.nodup_range.filter (edge rank))
    (fun d hd => List.mem_range.mp (List.mem_filter.mp hd).1) hindegree
  -- a dependent of the rank has it among its pending predecessors, any other rank has not
  have hcard : ∀ r < n, (if r ∈ (List.range n).filter (edge rank) then (pending n edge s.ordered r).card - 1
      else (pending n edge s.ordered r).card) = (pending n edge (s.ordered ++ [rank]) r).card := by
    intro r hr
    rw [pending_snoc]
    by_cases hedge : edge rank r
    · rw [if_pos (by simp [hr, hedge]), Finset.card_erase_of_mem (mem_pending.mpr ⟨hrank, hedge, hnot⟩)]
    · rw [if_neg (by simp [hedge]), Finset.erase_eq_of_notMem fun hp => hedge (mem_pending.mp hp).2.1]
  have hnew : ∀ d ∈ (List.range n).filter (edge rank), ((pending n edge s.ordered d).card - 1 = 0 ↔
      pending n edge (s.ordered ++ [rank]) d = ∅) := by
    intro d hd
    rw [← Finset.card_eq_zero, ← hcard d (List.mem_range.mp (List.mem_filter.mp hd).1), if_pos hd]
  have hall : (s.ordered ++ [rank] ++ (((List.range n).filter (edge rank)).foldl Schedule.release
      { s with ready, ordered := s.ordered ++ [rank] }).ready.ranks).Perm
      (s.ordered ++ rank :: ready.ranks ++ ((List.range n).filter (edge rank)).filter fun d =>
        (pending n edge s.ordered d).card - 1 = 0) := by
    refine (hranks.append_left _).trans (.of_eq ?_)
    simp
  refine ⟨?_, ?_, fun r => ?_⟩
  · rw [hindegree, hordered]
    exact List.map_congr_left fun r hr => hcard r (List.mem_range.mp hr)
  · rw [hordered]
    refine hall.nodup_iff.mpr (List.nodup_append.mpr ⟨hnodup, (List.nodup_range.filter _).filter _, ?_⟩)
    rintro a ha b hb rfl
    have hedge := (List.mem_filter.mp (List.mem_filter.mp hb).1).2
    have hpending := ((hmem a).mp ha).2
    exact absurd (mem_pending.mpr ⟨hrank, hedge, hnot⟩) (by rw [hpending]; exact Finset.notMem_empty _)
  · rw [hordered]
    refine hall.mem_iff.trans ?_
    rw [List.mem_append, hmem]
    constructor
    · rintro (⟨hr, hempty⟩ | hr)
      · exact ⟨hr, by rw [pending_snoc, hempty, Finset.erase_empty]⟩
      · obtain ⟨hr, hzero⟩ := List.mem_filter.mp hr
        exact ⟨List.mem_range.mp (List.mem_filter.mp hr).1, (hnew r hr).mp (by simpa using hzero)⟩
    · rintro ⟨hr, hempty⟩
      by_cases hedge : edge rank r
      · have hd : r ∈ (List.range n).filter (edge rank) := by simp [hr, hedge]
        exact .inr (List.mem_filter.mpr ⟨hd, by simpa using (hnew r hd).mpr hempty⟩)
      · rw [pending_snoc, Finset.erase_eq_of_notMem fun hp => hedge (mem_pending.mp hp).2.1] at hempty
        exact .inl ⟨hr, hempty⟩

theorem Scheduled.length_ordered_le {s : Schedule} (h : Scheduled n edge s) : s.ordered.length ≤ n := by
  have hsub : s.ordered ⊆ List.range n := fun r hr => List.mem_range.mpr ((h.mem r).mp (List.mem_append_left _ hr)).1
  simpa using ((List.nodup_append.mp h.nodup).1.subperm hsub).length_le

theorem Scheduled.run {s : Schedule} (h : Scheduled n edge s) (fuel : Nat) :
    Scheduled n edge (s.run (graphOf n edge).adjacency fuel) := by
  induction fuel generalizing s with
  | zero => exact h
  | succ fuel ih =>
      rw [Schedule.run]
      cases htake : s.ready.take with
      | none => exact h
      | some taken => exact ih (h.turn htake)

/-- The loop ends with no rank ready; the fuel covers the ranks. -/
theorem Scheduled.run_ready {fuel : Nat} {s : Schedule} (h : Scheduled n edge s) (hfuel : n ≤ fuel + s.ordered.length) :
    (s.run (graphOf n edge).adjacency fuel).ready.ranks = [] := by
  induction fuel generalizing s with
  | zero =>
      have hsub : s.ordered ++ s.ready.ranks ⊆ List.range n := fun r hr => List.mem_range.mpr ((h.mem r).mp hr).1
      have hlength := (h.nodup.subperm hsub).length_le
      simp only [List.length_append, List.length_range] at hlength
      exact List.length_eq_zero_iff.mp (by rw [Schedule.run]; omega)
  | succ fuel ih =>
      rw [Schedule.run]
      cases htake : s.ready.take with
      | none => exact ReadyRanks.take_eq_none htake
      | some taken =>
          refine ih (h.turn htake) ?_
          have hturn := (h.turn htake).length_ordered_le
          have hordered : ∀ (ds : List Nat) (t : Schedule), (ds.foldl Schedule.release t).ordered = t.ordered := by
            intro ds
            induction ds with
            | nil => exact fun t => rfl
            | cons d ds ih => exact fun t => ih (t.release d)
          rw [hordered]
          simp only [List.length_append, List.length_singleton]
          omega

/-! ## The least ready rank first -/

/-- Every rank is ordered behind its predecessors, before any greater rank that could have been ordered in its place. -/
def Greedy (n : Nat) (edge : Nat → Nat → Bool) (ordered : List Nat) : Prop :=
  ∀ before rank after, ordered = before ++ rank :: after →
    pending n edge before rank = ∅ ∧ ∀ r < n, r ∉ before → pending n edge before r = ∅ → rank ≤ r

theorem greedy_nil : Greedy n edge [] := by
  intro before rank after h
  simp at h

theorem Greedy.snoc {ordered : List Nat} {rank : Nat} (h : Greedy n edge ordered) (hfree : pending n edge ordered rank = ∅)
    (hleast : ∀ r < n, r ∉ ordered → pending n edge ordered r = ∅ → rank ≤ r) : Greedy n edge (ordered ++ [rank]) := by
  intro before r after hsplit
  rcases List.eq_nil_or_concat after with rfl | ⟨after, last, rfl⟩
  · obtain ⟨rfl, hlast⟩ := List.append_inj' hsplit rfl
    obtain rfl : rank = r := by simpa using hlast
    exact ⟨hfree, hleast⟩
  · rw [List.concat_eq_append, ← List.cons_append, ← List.append_assoc] at hsplit
    exact h before r after (List.append_inj' hsplit rfl).1

theorem ordered_foldl_release (dependents : List Nat) (s : Schedule) :
    (dependents.foldl Schedule.release s).ordered = s.ordered := by
  induction dependents generalizing s with
  | nil => rfl
  | cons d dependents ih => exact ih (s.release d)

theorem isHeap_foldl_release {dependents : List Nat} {s : Schedule} (h : ReadyRanks.IsHeap s.ready.ranks) :
    ReadyRanks.IsHeap (dependents.foldl Schedule.release s).ready.ranks := by
  induction dependents generalizing s with
  | nil => exact h
  | cons d dependents ih =>
      refine ih ?_
      unfold Schedule.release
      dsimp only
      split
      · exact ReadyRanks.isHeap_add h d
      · exact h

theorem isHeap_start (indegree : List Nat) : ReadyRanks.IsHeap (Schedule.start indegree).ready.ranks :=
  have hempty : ReadyRanks.IsHeap (ReadyRanks.mk []).ranks := fun _ _ hi => absurd hi (Nat.not_lt_zero _)
  ReadyRanks.isHeap_foldl_add hempty _

/-- The first ready rank is the least one that can be ordered. -/
theorem Scheduled.take_least {s : Schedule} (h : Scheduled n edge s) (hheap : ReadyRanks.IsHeap s.ready.ranks) {rank : Nat}
    {ready : ReadyRanks} (htake : s.ready.take = some (rank, ready)) :
    pending n edge s.ordered rank = ∅ ∧ ∀ r < n, r ∉ s.ordered → pending n edge s.ordered r = ∅ → rank ≤ r := by
  have hperm := ReadyRanks.take_perm htake
  have hrank : rank ∈ s.ready.ranks := hperm.mem_iff.mpr List.mem_cons_self
  refine ⟨((h.mem rank).mp (List.mem_append_right _ hrank)).2, fun r hr hnot hempty => ?_⟩
  have hready := (List.mem_append.mp ((h.mem r).mpr ⟨hr, hempty⟩)).resolve_left hnot
  exact ReadyRanks.take_le hheap htake r hready

theorem Scheduled.run_greedy {s : Schedule} (h : Scheduled n edge s) (hheap : ReadyRanks.IsHeap s.ready.ranks)
    (hgreedy : Greedy n edge s.ordered) (fuel : Nat) :
    Greedy n edge (s.run (graphOf n edge).adjacency fuel).ordered := by
  induction fuel generalizing s with
  | zero => exact hgreedy
  | succ fuel ih =>
      rw [Schedule.run]
      cases htake : s.ready.take with
      | none => exact hgreedy
      | some taken =>
          obtain ⟨hfree, hleast⟩ := h.take_least hheap htake
          refine ih (h.turn htake) (isHeap_foldl_release (ReadyRanks.isHeap_take hheap htake)) ?_
          rw [ordered_foldl_release]
          exact hgreedy.snoc hfree hleast

/-! ## Cycles -/

/-- One rank reaches another one along edges between the ranks. -/
def Reaches (n : Nat) (edge : Nat → Nat → Bool) : Nat → Nat → Prop :=
  Relation.TransGen fun p r => p < n ∧ r < n ∧ edge p r

/-- Ranks that each have a predecessor among them lie behind a cycle. -/
theorem exists_reaches_self {left : Finset Nat} (hne : left.Nonempty) (hlt : ∀ r ∈ left, r < n)
    (hpredecessor : ∀ r ∈ left, ∃ p ∈ left, edge p r) : ∃ r < n, Reaches n edge r r := by
  by_contra hacyclic
  push Not at hacyclic
  let below : left → left → Prop := fun p r => Reaches n edge p r
  have htrans : IsTrans left below := ⟨fun _ _ _ hab hbc => Relation.TransGen.trans hab hbc⟩
  have hirrefl : Std.Irrefl below := ⟨fun r hr => hacyclic r (hlt r r.2) hr⟩
  have hwf : WellFounded below := Finite.wellFounded_of_trans_of_irrefl below
  -- a least rank would have no predecessor
  obtain ⟨least, -, hleast⟩ := hwf.has_min Set.univ ⟨⟨hne.choose, hne.choose_spec⟩, trivial⟩
  obtain ⟨p, hp, hedge⟩ := hpredecessor least least.2
  exact hleast ⟨p, hp⟩ trivial (.single ⟨hlt p hp, hlt least least.2, hedge⟩)

/-- A rank that is ordered is ordered behind the ranks that reach it. -/
theorem Greedy.mem_of_reaches {before after : List Nat} {rank p : Nat} (h : Greedy n edge (before ++ rank :: after))
    (hreaches : Reaches n edge p rank) : p ∈ before := by
  induction hreaches using Relation.TransGen.head_induction_on with
  | single hedge =>
      by_contra hnot
      obtain ⟨hp, -, hedge⟩ := hedge
      exact Finset.notMem_empty _ ((h before rank after rfl).1 ▸ mem_pending.mpr ⟨hp, hedge, hnot⟩)
  | @head p q hedge _ hq =>
      obtain ⟨hp, -, hedge⟩ := hedge
      obtain ⟨front, back, rfl⟩ := List.append_of_mem hq
      by_contra hnot
      have hfree := (h front q (back ++ rank :: after) (by simp)).1
      exact Finset.notMem_empty _ (hfree ▸ mem_pending.mpr ⟨hp, hedge, fun hin => hnot (List.mem_append_left _ hin)⟩)

/-- The loop orders every rank unless there is a cycle. -/
theorem length_ordered_iff (n : Nat) (edge : Nat → Nat → Bool) :
    ((Schedule.start (graphOf n edge).indegree).run (graphOf n edge).adjacency n).ordered.length = n ↔
      ¬∃ r < n, Reaches n edge r r := by
  have hstart := scheduled_start n edge
  have hfinal := hstart.run n
  have hready := hstart.run_ready (Nat.le_add_right n _)
  have hgreedy := hstart.run_greedy (isHeap_start _) greedy_nil n
  have hmem := hfinal.mem
  rw [hready, List.append_nil] at hmem
  have hnodup := (List.nodup_append.mp hfinal.nodup).1
  generalize ((Schedule.start (graphOf n edge).indegree).run (graphOf n edge).adjacency n).ordered = ordered at *
  have hsub : ordered ⊆ List.range n := fun r hr => List.mem_range.mpr ((hmem r).mp hr).1
  constructor
  · rintro hlength ⟨r, hr, hreaches⟩
    have hall := (hnodup.subperm hsub).perm_of_length_le (by rw [hlength, List.length_range])
    obtain ⟨before, after, rfl⟩ := List.append_of_mem (hall.mem_iff.mpr (List.mem_range.mpr hr))
    have hbefore := hgreedy.mem_of_reaches hreaches
    exact (List.nodup_append.mp hnodup).2.2 r hbefore r List.mem_cons_self rfl
  · intro hacyclic
    by_contra hlength
    have hleft : ∃ r < n, r ∉ ordered := by
      by_contra hnone
      push Not at hnone
      have hall : (List.range n) ⊆ ordered := fun r hr => hnone r (List.mem_range.mp hr)
      have hle := (List.nodup_range.subperm hall).length_le
      have hge := (hnodup.subperm hsub).length_le
      rw [List.length_range] at hle hge
      exact hlength (le_antisymm hge hle)
    obtain ⟨r, hr, hnot⟩ := hleft
    have hne : ((Finset.range n).filter (· ∉ ordered)).Nonempty := ⟨r, by simp [hr, hnot]⟩
    refine hacyclic (exists_reaches_self hne (fun r hr => Finset.mem_range.mp (Finset.mem_filter.mp hr).1) fun r hr => ?_)
    obtain ⟨hr, hnot⟩ := Finset.mem_filter.mp hr
    have hpending : (pending n edge ordered r).Nonempty := by
      rw [Finset.nonempty_iff_ne_empty]
      exact fun hempty => hnot ((hmem r).mpr ⟨Finset.mem_range.mp hr, hempty⟩)
    obtain ⟨p, hp⟩ := hpending
    obtain ⟨hlt, hedge, hp⟩ := mem_pending.mp hp
    exact ⟨p, Finset.mem_filter.mpr ⟨Finset.mem_range.mpr hlt, hp⟩, hedge⟩

end Loop

end SecPlatform.Compiler
