import SecPlatform.Compiler.Resolve.ManifestGraph

/-!
# The heap keeps its ranks in order

Adding a rank and taking the first one move the other ranks around and lose none of them. Each rank stays behind the
one above it, so that the first one is the least.
-/

namespace SecPlatform.Compiler.ReadyRanks

/-- Two places are exchanged while one of them is free. -/
theorem set_set_perm_set {ranks : List Nat} {i j : Nat} (rank : Nat) (hi : i < ranks.length) (hj : j < ranks.length)
    (hne : i ≠ j) : ((ranks.set i (ranks.getD j 0)).set j rank).Perm (ranks.set i rank) := by
  have hi' : i < (ranks.set i rank).length := by simpa using hi
  have hj' : j < (ranks.set i rank).length := by simpa using hj
  have hswap := List.set_set_perm hi' hj'
  rw [List.getElem_set_self, List.getElem_set_ne hne, List.set_set] at hswap
  rw [List.getD_eq_getElem?_getD, List.getElem?_eq_getElem hj]
  exact hswap

theorem siftUp_perm (rank index : Nat) (ranks : List Nat) (h : index < ranks.length) :
    (siftUp rank index ranks).Perm (ranks.set index rank) := by
  fun_induction siftUp rank index ranks with
  | case1 => exact .refl _
  | case2 => exact .refl _
  | case3 index ranks hindex parent value hvalue ih =>
      have hparent : parent < index := by omega
      have hperm := ih (by rw [List.length_set]; omega)
      exact hperm.trans (set_set_perm_set rank h (by omega) (by omega))

theorem smallerChild_lt {ranks : List Nat} {index : Nat} (h : index * 2 + 1 < ranks.length) :
    smallerChild ranks index < ranks.length ∧ index < smallerChild ranks index := by
  unfold smallerChild
  dsimp only
  split <;> omega

theorem siftDown_perm (last index : Nat) (ranks : List Nat) (h : index < ranks.length) :
    (siftDown last index ranks).Perm (ranks.set index last) := by
  fun_induction siftDown last index ranks with
  | case1 => exact .refl _
  | case2 index ranks hchild child hlast ih =>
      obtain ⟨hlt, hne⟩ := smallerChild_lt hchild
      have hperm := ih (by rw [List.length_set]; exact hlt)
      exact hperm.trans (set_set_perm_set last h hlt (by omega))
  | case3 => exact .refl _

theorem add_perm (ready : ReadyRanks) (rank : Nat) : (ready.add rank).ranks.Perm (rank :: ready.ranks) := by
  have hperm := siftUp_perm rank ready.ranks.length (ready.ranks ++ [rank]) (by simp)
  rw [List.set_append_right _ _ (le_refl _), Nat.sub_self] at hperm
  exact hperm.trans (List.perm_append_singleton _ _)

theorem take_perm {ready ready' : ReadyRanks} {rank : Nat} (h : ready.take = some (rank, ready')) :
    ready.ranks.Perm (rank :: ready'.ranks) := by
  unfold take at h
  cases hranks : ready.ranks with
  | nil => simp [hranks] at h
  | cons first rest =>
      simp only [hranks, Option.some.injEq, Prod.mk.injEq] at h
      obtain ⟨rfl, rfl⟩ := h
      cases rest with
      | nil => simp
      | cons second rest =>
          have hsift := siftDown_perm ((first :: second :: rest).getLast (by simp)) 0 (first :: (second :: rest).dropLast)
            (by simp)
          have hlast : ((second :: rest).getLast (by simp) :: (second :: rest).dropLast).Perm (second :: rest) := by
            refine (List.perm_append_singleton _ _).symm.trans (.of_eq ?_)
            exact List.dropLast_append_getLast _
          exact (hsift.trans hlast).symm.cons first

theorem take_eq_none {ready : ReadyRanks} (h : ready.take = none) : ready.ranks = [] := by
  unfold take at h
  cases hranks : ready.ranks with
  | nil => rfl
  | cons first rest => simp [hranks] at h

/-- The ranks that are added one after another. -/
theorem foldl_add_perm (ready : ReadyRanks) (ranks : List Nat) :
    (ranks.foldl add ready).ranks.Perm (ready.ranks ++ ranks) := by
  induction ranks generalizing ready with
  | nil => simp
  | cons rank ranks ih =>
      refine (ih (ready.add rank)).trans ?_
      exact ((add_perm ready rank).append_right ranks).trans List.perm_middle.symm

/-! ## Order -/

/-- No rank is less than the one above it. -/
def IsHeap (ranks : List Nat) : Prop :=
  ∀ i, 0 < i → i < ranks.length → ranks.getD ((i - 1) / 2) 0 ≤ ranks.getD i 0

/-- The pairs that the free place is not part of are in order. -/
def OrderedBut (index : Nat) (ranks : List Nat) : Prop :=
  ∀ i, 0 < i → i < ranks.length → i ≠ index → (i - 1) / 2 ≠ index → ranks.getD ((i - 1) / 2) 0 ≤ ranks.getD i 0

/-- What is below the free place is not less than what is above it. -/
def OrderedAcross (index : Nat) (ranks : List Nat) : Prop :=
  0 < index → ∀ i, 0 < i → i < ranks.length → (i - 1) / 2 = index → ranks.getD ((index - 1) / 2) 0 ≤ ranks.getD i 0

/-- A rank that may stand below nothing and above the ranks below the free place. -/
structure MovesUp (rank index : Nat) (ranks : List Nat) : Prop where
  but : OrderedBut index ranks
  across : OrderedAcross index ranks
  below : ∀ i, 0 < i → i < ranks.length → (i - 1) / 2 = index → rank ≤ ranks.getD i 0

/-- A rank that may stand below what is above the free place. -/
structure MovesDown (last index : Nat) (ranks : List Nat) : Prop where
  but : OrderedBut index ranks
  across : OrderedAcross index ranks
  above : 0 < index → ranks.getD ((index - 1) / 2) 0 ≤ last

theorem getD_set_self {ranks : List Nat} {index : Nat} (h : index < ranks.length) (rank : Nat) :
    (ranks.set index rank).getD index 0 = rank := by
  simp [List.getD_eq_getElem?_getD, h]

theorem getD_set_ne (ranks : List Nat) {index i : Nat} (h : index ≠ i) (rank : Nat) :
    (ranks.set index rank).getD i 0 = ranks.getD i 0 := by
  simp [List.getD_eq_getElem?_getD, List.getElem?_set_ne h]

/-- A rank fits into the free place between what is above and what is below it. -/
theorem isHeap_set {rank index : Nat} {ranks : List Nat} (hindex : index < ranks.length) (hbut : OrderedBut index ranks)
    (habove : 0 < index → ranks.getD ((index - 1) / 2) 0 ≤ rank)
    (hbelow : ∀ i, 0 < i → i < ranks.length → (i - 1) / 2 = index → rank ≤ ranks.getD i 0) :
    IsHeap (ranks.set index rank) := by
  intro i hpos hi
  rw [List.length_set] at hi
  by_cases hself : i = index
  · subst hself
    rw [getD_set_self hi, getD_set_ne _ (by omega)]
    exact habove hpos
  rw [getD_set_ne _ (Ne.symm hself)]
  by_cases hparent : (i - 1) / 2 = index
  · rw [hparent, getD_set_self hindex]
    exact hbelow i hpos hi hparent
  · rw [getD_set_ne _ (Ne.symm hparent)]
    exact hbut i hpos hi hself hparent

theorem MovesUp.move {rank index : Nat} {ranks : List Nat} (h : MovesUp rank index ranks) (hpos : 0 < index)
    (hindex : index < ranks.length) (hlt : rank < ranks.getD ((index - 1) / 2) 0) :
    MovesUp rank ((index - 1) / 2) (ranks.set index (ranks.getD ((index - 1) / 2) 0)) := by
  -- what stands beside the old free place is not less than what moves down
  have hbeside : ∀ i, 0 < i → i < ranks.length → i ≠ index → (i - 1) / 2 = (index - 1) / 2 →
      ranks.getD ((index - 1) / 2) 0 ≤ ranks.getD i 0 := by
    intro i hi hlen hne hparent
    have := h.but i hi hlen hne (by omega)
    rwa [hparent] at this
  constructor
  · intro i hi hlen hne hparent
    rw [List.length_set] at hlen
    have hself : i ≠ index := fun heq => hparent (by rw [heq])
    rw [getD_set_ne _ (Ne.symm hself)]
    by_cases hbelow : (i - 1) / 2 = index
    · rw [hbelow, getD_set_self hindex]
      exact h.across hpos i hi hlen hbelow
    · rw [getD_set_ne _ (Ne.symm hbelow)]
      exact h.but i hi hlen hself hbelow
  · intro habove i hi hlen hparent
    rw [List.length_set] at hlen
    have htop := h.but ((index - 1) / 2) habove (by omega) (by omega) (by omega)
    rw [getD_set_ne _ (by omega)]
    by_cases hself : i = index
    · rw [hself, getD_set_self hindex]
      exact htop
    · rw [getD_set_ne _ (Ne.symm hself)]
      exact htop.trans (hbeside i hi hlen hself hparent)
  · intro i hi hlen hparent
    rw [List.length_set] at hlen
    by_cases hself : i = index
    · rw [hself, getD_set_self hindex]
      exact hlt.le
    · rw [getD_set_ne _ (Ne.symm hself)]
      exact hlt.le.trans (hbeside i hi hlen hself hparent)

theorem isHeap_siftUp {rank index : Nat} {ranks : List Nat} (h : MovesUp rank index ranks) (hindex : index < ranks.length) :
    IsHeap (siftUp rank index ranks) := by
  fun_induction siftUp rank index ranks with
  | case1 => exact isHeap_set hindex h.but (fun hpos => absurd rfl hpos.ne') h.below
  | case2 index ranks hne parent value hvalue => exact isHeap_set hindex h.but (fun _ => hvalue) h.below
  | case3 index ranks hne parent value hvalue ih =>
      exact ih (h.move (Nat.pos_of_ne_zero hne) hindex (Nat.lt_of_not_le hvalue)) (by rw [List.length_set]; omega)

theorem isHeap_add {ready : ReadyRanks} (h : IsHeap ready.ranks) (rank : Nat) : IsHeap (ready.add rank).ranks := by
  have hsame : ∀ i, i < ready.ranks.length → (ready.ranks ++ [rank]).getD i 0 = ready.ranks.getD i 0 := by
    intro i hi
    simp only [List.getD_eq_getElem?_getD, List.getElem?_append_left hi]
  refine isHeap_siftUp ⟨?_, ?_, ?_⟩ (by simp)
  · intro i hpos hi hne _
    rw [List.length_append, List.length_singleton] at hi
    rw [hsame i (by omega), hsame _ (by omega)]
    exact h i hpos (by omega)
  · intro _ i _ hi hparent
    rw [List.length_append, List.length_singleton] at hi
    omega
  · intro i _ hi hparent
    rw [List.length_append, List.length_singleton] at hi
    omega

/-- The smaller child is a child, and the other one is not less. -/
theorem smallerChild_spec (ranks : List Nat) (index : Nat) :
    (smallerChild ranks index - 1) / 2 = index ∧ 0 < smallerChild ranks index ∧
      ∀ i, 0 < i → i < ranks.length → (i - 1) / 2 = index → ranks.getD (smallerChild ranks index) 0 ≤ ranks.getD i 0 := by
  unfold smallerChild
  dsimp only
  split
  · rename_i hright
    refine ⟨by omega, by omega, fun i _ _ hparent => ?_⟩
    obtain rfl | rfl : i = index * 2 + 1 ∨ i = index * 2 + 1 + 1 := by omega
    · exact hright.2.le
    · exact le_rfl
  · rename_i hleft
    refine ⟨by omega, by omega, fun i _ hi hparent => ?_⟩
    obtain rfl | rfl : i = index * 2 + 1 ∨ i = index * 2 + 1 + 1 := by omega
    · exact le_rfl
    · exact Nat.le_of_not_lt fun hlt => hleft ⟨hi, hlt⟩

theorem MovesDown.move {last index child : Nat} {ranks : List Nat} (h : MovesDown last index ranks)
    (hindex : index < ranks.length) (hchild : child < ranks.length) (hparent : (child - 1) / 2 = index) (hpos : 0 < child)
    (hleast : ∀ i, 0 < i → i < ranks.length → (i - 1) / 2 = index → ranks.getD child 0 ≤ ranks.getD i 0)
    (hlt : ranks.getD child 0 < last) : MovesDown last child (ranks.set index (ranks.getD child 0)) := by
  constructor
  · intro i hi hlen hne hbelow
    rw [List.length_set] at hlen
    by_cases hself : i = index
    · rw [hself, getD_set_self hindex, getD_set_ne _ (by omega)]
      exact h.across (by omega) child hpos hchild hparent
    · rw [getD_set_ne _ (Ne.symm hself)]
      by_cases hbeside : (i - 1) / 2 = index
      · rw [hbeside, getD_set_self hindex]
        exact hleast i hi hlen hbeside
      · rw [getD_set_ne _ (Ne.symm hbeside)]
        exact h.but i hi hlen hself hbeside
  · intro _ i hi hlen hbelow
    rw [List.length_set] at hlen
    rw [hparent, getD_set_self hindex, getD_set_ne _ (by omega), ← hbelow]
    exact h.but i hi hlen (by omega) (by omega)
  · intro _
    rw [hparent, getD_set_self hindex]
    exact hlt.le

theorem isHeap_siftDown {last index : Nat} {ranks : List Nat} (h : MovesDown last index ranks)
    (hindex : index < ranks.length) : IsHeap (siftDown last index ranks) := by
  fun_induction siftDown last index ranks with
  | case1 index ranks hchild child hlast =>
      obtain ⟨-, -, hleast⟩ := smallerChild_spec ranks index
      exact isHeap_set hindex h.but h.above fun i hpos hi hparent => hlast.trans (hleast i hpos hi hparent)
  | case2 index ranks hchild child hlast ih =>
      obtain ⟨hparent, hpos, hleast⟩ := smallerChild_spec ranks index
      have hlt := (smallerChild_lt hchild).1
      exact ih (h.move hindex hlt hparent hpos hleast (Nat.lt_of_not_le hlast)) (by rw [List.length_set]; exact hlt)
  | case3 index ranks hchild =>
      exact isHeap_set hindex h.but h.above fun i hpos hi hparent => absurd hi (by omega)

theorem isHeap_take {ready ready' : ReadyRanks} {rank : Nat} (h : IsHeap ready.ranks)
    (htake : ready.take = some (rank, ready')) : IsHeap ready'.ranks := by
  unfold take at htake
  cases hranks : ready.ranks with
  | nil => simp [hranks] at htake
  | cons first rest =>
      simp only [hranks, Option.some.injEq, Prod.mk.injEq] at htake
      obtain ⟨-, rfl⟩ := htake
      rw [hranks] at h
      dsimp only
      split
      · exact fun i _ hi => absurd hi (Nat.not_lt_zero i)
      · rename_i hne
        have hsame : ∀ i, i < (first :: rest).dropLast.length →
            (first :: rest).dropLast.getD i 0 = (first :: rest).getD i 0 := by
          intro i hi
          simp only [List.getD_eq_getElem?_getD, List.getElem?_dropLast]
          rw [if_pos (by rwa [List.length_dropLast] at hi)]
        refine isHeap_siftDown ⟨?_, fun hpos => absurd rfl hpos.ne', fun hpos => absurd rfl hpos.ne'⟩
          (List.length_pos_iff.mpr hne)
        intro i hpos hi _ _
        rw [hsame i hi, hsame _ (by omega)]
        exact h i hpos (by rw [List.length_dropLast] at hi; omega)

/-- The first rank of a heap is the least one. -/
theorem head_le {ranks : List Nat} (h : IsHeap ranks) : ∀ i < ranks.length, ranks.getD 0 0 ≤ ranks.getD i 0 := by
  intro i
  induction i using Nat.strongRecOn with
  | _ i ih =>
      intro hi
      rcases Nat.eq_zero_or_pos i with rfl | hpos
      · exact le_rfl
      · exact (ih ((i - 1) / 2) (by omega) (by omega)).trans (h i hpos hi)

/-- The rank that is taken is the least one. -/
theorem take_le {ready ready' : ReadyRanks} {rank : Nat} (h : IsHeap ready.ranks)
    (htake : ready.take = some (rank, ready')) : ∀ r ∈ ready.ranks, rank ≤ r := by
  intro r hr
  obtain ⟨i, hi, rfl⟩ := List.mem_iff_getElem.mp hr
  have hget : ready.ranks.getD i 0 = ready.ranks[i] := by
    rw [List.getD_eq_getElem?_getD, List.getElem?_eq_getElem hi, Option.getD_some]
  rw [← hget]
  have hle := head_le h i hi
  unfold take at htake
  cases hranks : ready.ranks with
  | nil => simp [hranks] at htake
  | cons first rest =>
      simp only [hranks, Option.some.injEq, Prod.mk.injEq] at htake
      obtain ⟨rfl, -⟩ := htake
      rw [hranks] at hle
      exact hle

theorem isHeap_foldl_add {ready : ReadyRanks} (h : IsHeap ready.ranks) (ranks : List Nat) :
    IsHeap (ranks.foldl add ready).ranks := by
  induction ranks generalizing ready with
  | nil => exact h
  | cons rank ranks ih => exact ih (isHeap_add h rank)

end SecPlatform.Compiler.ReadyRanks
