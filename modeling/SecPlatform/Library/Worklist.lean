import Mathlib.Algebra.BigOperators.Group.List.Basic
import Mathlib.Algebra.GroupWithZero.Nat
import Mathlib.Data.List.Basic
import Mathlib.Logic.Relation
import Mathlib.Order.Basic

/-!
# A search with a worklist

A breadth-first search through a graph whose edges depend on how a node was reached: every entry of the queue carries
a mode, the first entries their own and the entries added later one fixed mode. A node is expanded once, by the first
of its entries that is taken. Nodes at which the search stops are collected and not expanded.
-/

namespace SecPlatform.Worklist

variable {α β : Type} [DecidableEq α]

/-- The nodes expanded so far and the stops found so far. -/
structure Progress (α : Type) where
  visited : List α
  matched : List α

/-- The search before its first turn. -/
def Progress.start : Progress α := ⟨[], []⟩

section Search

variable (stops : α → Bool) (next : β → α → List α) (later : β)

/-- The entries that an expansion adds to the queue. -/
def pushed (visited : List α) (entry : α × β) : List (α × β) :=
  ((next entry.2 entry.1).filter fun c => !stops c && !decide (c ∈ visited)).map (·, later)

/-- The node of an entry is expanded. -/
def visit (entry : α × β) (progress : Progress α) : Progress α :=
  ⟨entry.1 :: progress.visited, progress.matched ++ (next entry.2 entry.1).filter stops⟩

/-- The search with a bound on the number of its turns; `none` when the bound is too small. -/
def search : Nat → List (α × β) → Progress α → Option (Progress α)
  | _, [], progress => some progress
  | 0, _ :: _, _ => none
  | fuel + 1, entry :: queue, progress =>
      if entry.1 ∈ progress.visited then search fuel queue progress
      else
        search fuel (queue ++ pushed stops next later (entry.1 :: progress.visited) entry) (visit stops next entry progress)

end Search

/-! ## The end of the search -/

section End

variable {stops : α → Bool} {next : β → α → List α} {later : β} {weight : α → Nat} {nodes visited : List α}

/-- The weights of the nodes that have not been visited. -/
def remaining (weight : α → Nat) (nodes visited : List α) : Nat :=
  ((nodes.filter (· ∉ visited)).map weight).sum

theorem remaining_cons (node : α) :
    remaining weight (node :: nodes) visited =
      (if node ∈ visited then 0 else weight node) + remaining weight nodes visited := by
  by_cases h : node ∈ visited <;> simp [remaining, h]

theorem remaining_visit_le (a : α) : remaining weight nodes (a :: visited) ≤ remaining weight nodes visited := by
  induction nodes with
  | nil => exact Nat.le_refl _
  | cons node nodes ih =>
      rw [remaining_cons, remaining_cons]
      by_cases h : node ∈ visited
      · simpa [h] using ih
      · rw [if_neg h]
        split <;> omega

theorem remaining_visit {a : α} (hnew : a ∉ visited) (hmem : a ∈ nodes) :
    remaining weight nodes (a :: visited) + weight a ≤ remaining weight nodes visited := by
  induction nodes with
  | nil => simp at hmem
  | cons node nodes ih =>
      rw [remaining_cons, remaining_cons]
      by_cases h : node = a
      · subst h
        have hle : remaining weight nodes (node :: visited) ≤ remaining weight nodes visited := remaining_visit_le node
        rw [if_pos List.mem_cons_self, if_neg hnew]
        omega
      · have hle := ih ((List.mem_cons.mp hmem).resolve_left (Ne.symm h))
        simp only [List.mem_cons, h, false_or]
        omega

/-- A search ends when the bound covers the queue and the edges of the nodes that are left. -/
theorem search_isSome (hweight : ∀ b a, (next b a).length ≤ weight a) (hnodes : ∀ a, weight a ≠ 0 → a ∈ nodes)
    {fuel : Nat} {queue : List (α × β)} {progress : Progress α}
    (h : queue.length + remaining weight nodes progress.visited ≤ fuel) :
    (search stops next later fuel queue progress).isSome := by
  induction fuel generalizing queue progress with
  | zero =>
      cases queue with
      | nil => rfl
      | cons entry queue => simp at h
  | succ fuel ih =>
      cases queue with
      | nil => rfl
      | cons entry queue =>
          rw [List.length_cons] at h
          unfold search
          split
          · exact ih (by omega)
          · rename_i hnew
            refine ih ?_
            have hpushed : (pushed stops next later (entry.1 :: progress.visited) entry).length ≤ weight entry.1 := by
              rw [pushed, List.length_map]
              exact Nat.le_trans (List.length_filter_le _ _) (hweight _ _)
            have hleft : remaining weight nodes (entry.1 :: progress.visited) + weight entry.1 ≤
                remaining weight nodes progress.visited := by
              by_cases hzero : weight entry.1 = 0
              · rw [hzero, Nat.add_zero]
                exact remaining_visit_le _
              · exact remaining_visit hnew (hnodes _ hzero)
            simp only [List.length_append, visit]
            omega

end End

/-! ## What the search finds -/

section Found

variable (stops : α → Bool) (next : β → α → List α) (later : β)

/-- One edge of the search: it ends at a node that is expanded in turn. -/
def Edge (a c : α × β) : Prop := c.1 ∈ next a.2 a.1 ∧ stops c.1 = false ∧ c.2 = later

/-- A stop is found from an entry: the edges of the entry are those of its own mode, the edges of the nodes reached
after it those of the later mode, and none of these nodes is a stop. -/
def Finds (entry : α × β) (stop : α) : Prop :=
  stops stop = true ∧ ∃ last, Relation.ReflTransGen (Edge stops next later) entry last ∧ stop ∈ next last.2 last.1

variable {stops next later} {seeds : List (α × β)}

theorem mem_pushed {visited : List α} {entry c : α × β} :
    c ∈ pushed stops next later visited entry ↔ Edge stops next later entry c ∧ c.1 ∉ visited := by
  obtain ⟨node, mode⟩ := c
  simp only [pushed, List.mem_map, List.mem_filter, Bool.and_eq_true, Bool.not_eq_true', decide_eq_false_iff_not,
    Prod.mk.injEq, Edge]
  constructor
  · rintro ⟨a, ⟨ha, hstop, hnew⟩, rfl, rfl⟩
    exact ⟨⟨ha, hstop, rfl⟩, hnew⟩
  · rintro ⟨⟨ha, hstop, rfl⟩, hnew⟩
    exact ⟨node, ⟨ha, hstop, hnew⟩, rfl, rfl⟩

/-- Whatever the order of its turns, a search finds only what is found from its seeds. -/
theorem finds_of_mem_search {fuel : Nat} {queue : List (α × β)} {progress final : Progress α}
    (hqueue : ∀ entry ∈ queue, ∃ seed ∈ seeds, Relation.ReflTransGen (Edge stops next later) seed entry)
    (hmatched : ∀ stop ∈ progress.matched, ∃ seed ∈ seeds, Finds stops next later seed stop)
    (h : search stops next later fuel queue progress = some final) {stop : α} (hstop : stop ∈ final.matched) :
    ∃ seed ∈ seeds, Finds stops next later seed stop := by
  induction fuel generalizing queue progress with
  | zero =>
      cases queue with
      | nil =>
          simp only [search, Option.some.injEq] at h
          exact hmatched stop (h ▸ hstop)
      | cons entry queue => simp [search] at h
  | succ fuel ih =>
      cases queue with
      | nil =>
          simp only [search, Option.some.injEq] at h
          exact hmatched stop (h ▸ hstop)
      | cons entry queue =>
          obtain ⟨seed, hseed, hreach⟩ := hqueue entry List.mem_cons_self
          unfold search at h
          split at h
          · exact ih (fun e he => hqueue e (List.mem_cons_of_mem _ he)) hmatched h
          · refine ih ?_ ?_ h
            · intro e he
              rcases List.mem_append.mp he with he | he
              · exact hqueue e (List.mem_cons_of_mem _ he)
              · exact ⟨seed, hseed, hreach.tail (mem_pushed.mp he).1⟩
            · intro t ht
              rcases List.mem_append.mp ht with ht | ht
              · exact hmatched t ht
              · obtain ⟨ht, hstops⟩ := List.mem_filter.mp ht
                exact ⟨seed, hseed, hstops, entry, hreach, ht⟩

/-! ### Nothing is missed

A node that is reached under two modes is expanded under one of them. Nothing is lost when the seeds come first, each
node under one mode as a seed, and the edges of a seed are among those of the later mode. -/

/-- The edges of an entry have been followed: stops are collected, other nodes visited or queued. -/
def Expanded (stops : α → Bool) (next : β → α → List α) (queue : List (α × β)) (progress : Progress α)
    (entry : α × β) : Prop :=
  ∀ c ∈ next entry.2 entry.1, (stops c = true → c ∈ progress.matched) ∧
    (stops c = false → c ∈ progress.visited ∨ ∃ e ∈ queue, e.1 = c)

/-- The search between two turns: the seeds that are left, and the entries added after them. -/
structure Covers (stops : α → Bool) (next : β → α → List α) (later : β) (seeds rest added : List (α × β))
    (progress : Progress α) : Prop where
  later_added : ∀ entry ∈ added, entry.2 = later
  left_or_expanded : ∀ seed ∈ seeds, seed ∈ rest ∨ Expanded stops next (rest ++ added) progress seed
  expanded_seed : ∀ seed ∈ seeds, seed.1 ∈ progress.visited → Expanded stops next (rest ++ added) progress seed
  expanded_later : ∀ node ∈ progress.visited, Expanded stops next (rest ++ added) progress (node, later)

omit [DecidableEq α] in
theorem Expanded.mono {queue queue' : List (α × β)} {progress progress' : Progress α} {entry : α × β}
    (h : Expanded stops next queue progress entry) (hmatched : ∀ c ∈ progress.matched, c ∈ progress'.matched)
    (hvisited : ∀ c ∈ progress.visited, c ∈ progress'.visited)
    (hqueue : ∀ e ∈ queue, e.1 ∈ progress'.visited ∨ ∃ e' ∈ queue', e'.1 = e.1) :
    Expanded stops next queue' progress' entry := by
  intro c hc
  obtain ⟨hstop, hpass⟩ := h c hc
  refine ⟨fun hs => hmatched c (hstop hs), fun hs => ?_⟩
  rcases hpass hs with hc | ⟨e, he, rfl⟩
  · exact .inl (hvisited c hc)
  · exact hqueue e he

theorem expanded_visit (queue : List (α × β)) (progress : Progress α) (entry : α × β) :
    Expanded stops next (queue ++ pushed stops next later (entry.1 :: progress.visited) entry)
      (visit stops next entry progress) entry := by
  intro c hc
  refine ⟨fun hs => List.mem_append_right _ (List.mem_filter.mpr ⟨hc, hs⟩), fun hs => ?_⟩
  by_cases hvisited : c ∈ entry.1 :: progress.visited
  · exact .inl hvisited
  · exact .inr ⟨(c, later), List.mem_append_right _ (mem_pushed.mpr ⟨⟨hc, hs, rfl⟩, hvisited⟩), rfl⟩

omit [DecidableEq α] in
/-- What has been expanded stays so when the first entry of the queue is expanded. -/
theorem Expanded.visit {front added : List (α × β)} {progress : Progress α} {entry e : α × β}
    (h : Expanded stops next (entry :: front) progress e) :
    Expanded stops next (front ++ added) (visit stops next entry progress) e := by
  refine h.mono (fun c hc => List.mem_append_left _ hc) (fun c hc => List.mem_cons_of_mem _ hc) fun e' he' => ?_
  rcases List.mem_cons.mp he' with rfl | he'
  · exact .inl List.mem_cons_self
  · exact .inr ⟨e', List.mem_append_left _ he', rfl⟩

omit [DecidableEq α] in
/-- What has been expanded stays so when the first entry of the queue is passed over. -/
theorem Expanded.skip {queue : List (α × β)} {progress : Progress α} {entry e : α × β}
    (h : Expanded stops next (entry :: queue) progress e) (hentry : entry.1 ∈ progress.visited) :
    Expanded stops next queue progress e := by
  refine h.mono (fun _ hc => hc) (fun _ hc => hc) fun e' he' => ?_
  rcases List.mem_cons.mp he' with rfl | he'
  · exact .inl hentry
  · exact .inr ⟨e', he', rfl⟩

section Turns

variable {rest added : List (α × β)} {progress : Progress α} {entry : α × β}

omit [DecidableEq α] in
theorem Covers.start (seeds : List (α × β)) : Covers stops next later seeds seeds [] .start where
  later_added := by simp
  left_or_expanded seed hseed := .inl hseed
  expanded_seed seed _ h := by simp [Progress.start] at h
  expanded_later node h := by simp [Progress.start] at h

omit [DecidableEq α] in
theorem Covers.skip_seed (h : Covers stops next later seeds (entry :: rest) added progress)
    (hentry : entry.1 ∈ progress.visited) : Covers stops next later seeds rest added progress where
  later_added := h.later_added
  left_or_expanded seed hseed := by
    rcases h.left_or_expanded seed hseed with hleft | hexpanded
    · rcases List.mem_cons.mp hleft with rfl | hleft
      · exact .inr ((h.expanded_seed seed hseed hentry).skip hentry)
      · exact .inl hleft
    · exact .inr (hexpanded.skip hentry)
  expanded_seed seed hseed hvisited := (h.expanded_seed seed hseed hvisited).skip hentry
  expanded_later node hnode := (h.expanded_later node hnode).skip hentry

omit [DecidableEq α] in
theorem Covers.skip_added (h : Covers stops next later seeds [] (entry :: added) progress)
    (hentry : entry.1 ∈ progress.visited) : Covers stops next later seeds [] added progress where
  later_added e he := h.later_added e (List.mem_cons_of_mem _ he)
  left_or_expanded seed hseed := .inr (((h.left_or_expanded seed hseed).resolve_left (by simp)).skip hentry)
  expanded_seed seed hseed hvisited := (h.expanded_seed seed hseed hvisited).skip hentry
  expanded_later node hnode := (h.expanded_later node hnode).skip hentry

theorem later_added_visit (h : ∀ e ∈ added, e.2 = later) (visited : List α) :
    ∀ e ∈ added ++ pushed stops next later visited entry, e.2 = later := by
  intro e he
  rcases List.mem_append.mp he with he | he
  · exact h e he
  · exact (mem_pushed.mp he).1.2.2

theorem Covers.visit_seed (h : Covers stops next later seeds (entry :: rest) added progress) (hentry : entry ∈ seeds)
    (hmode : ∀ seed ∈ seeds, ∀ seed' ∈ seeds, seed.1 = seed'.1 → seed = seed')
    (hlater : ∀ seed ∈ seeds, ∀ c ∈ next later seed.1, c ∈ next seed.2 seed.1) :
    Covers stops next later seeds rest (added ++ pushed stops next later (entry.1 :: progress.visited) entry)
      (visit stops next entry progress) where
  later_added := later_added_visit h.later_added _
  left_or_expanded seed hseed := by
    rw [← List.append_assoc]
    rcases h.left_or_expanded seed hseed with hleft | hexpanded
    · rcases List.mem_cons.mp hleft with rfl | hleft
      · exact .inr (expanded_visit _ _ _)
      · exact .inl hleft
    · exact .inr hexpanded.visit
  expanded_seed seed hseed hvisited := by
    rw [← List.append_assoc]
    rcases List.mem_cons.mp hvisited with heq | hvisited
    · rw [hmode seed hseed entry hentry heq]
      exact expanded_visit _ _ _
    · exact (h.expanded_seed seed hseed hvisited).visit
  expanded_later node hnode := by
    rw [← List.append_assoc]
    rcases List.mem_cons.mp hnode with rfl | hnode
    · exact fun c hc => expanded_visit _ _ entry c (hlater entry hentry c hc)
    · exact (h.expanded_later node hnode).visit

theorem Covers.visit_added (h : Covers stops next later seeds [] (entry :: added) progress) :
    Covers stops next later seeds [] (added ++ pushed stops next later (entry.1 :: progress.visited) entry)
      (visit stops next entry progress) where
  later_added := later_added_visit (fun e he => h.later_added e (List.mem_cons_of_mem _ he)) _
  left_or_expanded seed hseed := .inr ((h.left_or_expanded seed hseed).resolve_left (by simp)).visit
  -- all seeds have been taken before the first entry that is not one
  expanded_seed seed hseed _ := ((h.left_or_expanded seed hseed).resolve_left (by simp)).visit
  expanded_later node hnode := by
    rcases List.mem_cons.mp hnode with rfl | hnode
    · have hself : Expanded stops next (added ++ pushed stops next later (entry.1 :: progress.visited) entry)
          (visit stops next entry progress) entry := expanded_visit added progress entry
      have hentry : entry = (entry.1, later) := Prod.ext rfl (h.later_added entry List.mem_cons_self)
      rw [hentry] at hself ⊢
      exact hself
    · exact (h.expanded_later node hnode).visit

/-- The search keeps its invariant to the end. -/
theorem Covers.search (hmode : ∀ seed ∈ seeds, ∀ seed' ∈ seeds, seed.1 = seed'.1 → seed = seed')
    (hlater : ∀ seed ∈ seeds, ∀ c ∈ next later seed.1, c ∈ next seed.2 seed.1) {fuel : Nat} {final : Progress α}
    (h : Covers stops next later seeds rest added progress) (hrest : ∀ e ∈ rest, e ∈ seeds)
    (hrun : search stops next later fuel (rest ++ added) progress = some final) :
    Covers stops next later seeds [] [] final := by
  induction fuel generalizing rest added progress with
  | zero =>
      cases rest with
      | nil =>
          cases added with
          | nil =>
              simp only [List.append_nil, Worklist.search, Option.some.injEq] at hrun
              exact hrun ▸ h
          | cons entry added => simp [Worklist.search] at hrun
      | cons entry rest => simp [Worklist.search] at hrun
  | succ fuel ih =>
      cases rest with
      | nil =>
          cases added with
          | nil =>
              simp only [List.append_nil, Worklist.search, Option.some.injEq] at hrun
              exact hrun ▸ h
          | cons entry added =>
              rw [List.nil_append, Worklist.search] at hrun
              split at hrun
              · rename_i hvisited
                exact ih (h.skip_added hvisited) hrest hrun
              · exact ih h.visit_added hrest hrun
      | cons entry rest =>
          have hseeds : ∀ e ∈ rest, e ∈ seeds := fun e he => hrest e (List.mem_cons_of_mem _ he)
          rw [List.cons_append, Worklist.search] at hrun
          split at hrun
          · rename_i hvisited
            exact ih (h.skip_seed hvisited) hseeds hrun
          · rw [List.append_assoc] at hrun
            exact ih (h.visit_seed (hrest entry List.mem_cons_self) hmode hlater) hseeds hrun

omit [DecidableEq α] in
/-- At the end every stop that a seed finds has been collected. -/
theorem Covers.matched (h : Covers stops next later seeds [] [] progress) {seed : α × β} (hseed : seed ∈ seeds)
    {stop : α} (hfinds : Finds stops next later seed stop) : stop ∈ progress.matched := by
  obtain ⟨hstops, last, hreach, hstop⟩ := hfinds
  have hexpanded : Expanded stops next [] progress last := by
    clear hstop
    induction hreach with
    | refl => exact (h.left_or_expanded seed hseed).resolve_left (by simp)
    | @tail before after _ hedge ih =>
        obtain ⟨hmem, hpass, hmode⟩ := hedge
        have hvisited := ((ih after.1 hmem).2 hpass).resolve_right (by simp)
        have hafter : after = (after.1, later) := Prod.ext rfl hmode
        rw [hafter]
        exact h.expanded_later after.1 hvisited
  exact (hexpanded stop hstop).1 hstops

end Turns

/-- The search collects exactly the stops that its seeds find. -/
theorem mem_search (hmode : ∀ seed ∈ seeds, ∀ seed' ∈ seeds, seed.1 = seed'.1 → seed = seed')
    (hlater : ∀ seed ∈ seeds, ∀ c ∈ next later seed.1, c ∈ next seed.2 seed.1) {fuel : Nat} {final : Progress α}
    (h : search stops next later fuel seeds .start = some final) {stop : α} :
    stop ∈ final.matched ↔ ∃ seed ∈ seeds, Finds stops next later seed stop := by
  constructor
  · exact finds_of_mem_search (fun entry hentry => ⟨entry, hentry, .refl⟩) (by simp [Progress.start]) h
  · rintro ⟨seed, hseed, hfinds⟩
    have hrun : search stops next later fuel (seeds ++ []) .start = some final := by rwa [List.append_nil]
    exact (Covers.search hmode hlater (Covers.start seeds) (fun _ he => he) hrun).matched hseed hfinds

/-! ### After the first edge -/

/-- One edge between nodes that are expanded in the later mode. -/
def LaterEdge (stops : α → Bool) (next : β → α → List α) (later : β) (a c : α) : Prop :=
  c ∈ next later a ∧ stops c = false

omit [DecidableEq α] in
theorem reflTransGen_later {entry last : α × β} (hlater : entry.2 = later) :
    Relation.ReflTransGen (Edge stops next later) entry last ↔
      Relation.ReflTransGen (LaterEdge stops next later) entry.1 last.1 ∧ last.2 = later := by
  constructor
  · intro h
    induction h with
    | refl => exact ⟨.refl, hlater⟩
    | tail _ hedge ih =>
        obtain ⟨hmem, hpass, hmode⟩ := hedge
        rw [ih.2] at hmem
        exact ⟨ih.1.tail ⟨hmem, hpass⟩, hmode⟩
  · rintro ⟨h, hmode⟩
    obtain ⟨node, mode⟩ := last
    obtain ⟨start, _⟩ := entry
    obtain rfl : mode = later := hmode
    obtain rfl : _ = mode := hlater
    dsimp only at h
    induction h with
    | refl => exact .refl
    | tail _ hedge ih => exact ih.tail ⟨hedge.1, hedge.2, rfl⟩

omit [DecidableEq α] in
/-- A stop is found along the first edges or, behind a node that is expanded, along later ones. -/
theorem finds_iff {entry : α × β} {stop : α} :
    Finds stops next later entry stop ↔ stops stop = true ∧ (stop ∈ next entry.2 entry.1 ∨
      ∃ inner ∈ next entry.2 entry.1, stops inner = false ∧
        ∃ last, Relation.ReflTransGen (LaterEdge stops next later) inner last ∧ stop ∈ next later last) := by
  refine and_congr_right fun _ => ?_
  constructor
  · rintro ⟨last, hreach, hstop⟩
    rcases hreach.cases_head with rfl | ⟨inner, hedge, hreach⟩
    · exact .inl hstop
    · obtain ⟨hmem, hpass, hmode⟩ := hedge
      obtain ⟨hreach, hlast⟩ := (reflTransGen_later hmode).mp hreach
      exact .inr ⟨inner.1, hmem, hpass, last.1, hreach, hlast ▸ hstop⟩
  · rintro (hstop | ⟨inner, hmem, hpass, last, hreach, hstop⟩)
    · exact ⟨entry, .refl, hstop⟩
    · have hinner : Edge stops next later entry (inner, later) := ⟨hmem, hpass, rfl⟩
      have hlater : ((inner, later) : α × β).2 = later := rfl
      exact ⟨(last, later), .head hinner ((reflTransGen_later hlater).mpr ⟨hreach, rfl⟩), hstop⟩

end Found

end SecPlatform.Worklist
