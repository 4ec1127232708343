import Mathlib.Data.List.Pairwise
import SecPlatform.Contracts.DirectedGraph
import SecPlatform.Library.DependencySearch

/-!
# The invariant of the component search

Every frame reaches the stack above it, every node on the stack reaches a frame below it, and the low link of a frame
bounds the indices that the edges of its part of the stack lead to.
-/

namespace SecPlatform.Contracts.ComponentSearch

open Relation

variable {targetsOf : Text → List Text} {s : ComponentSearch} {v t x y : Text}

def Edge (targetsOf : Text → List Text) (x y : Text) : Prop := y ∈ targetsOf x

def Visited (s : ComponentSearch) (x : Text) : Prop := (s.indexByNodeId x).isSome

/-- The frames have given this target of the node. -/
def Processed (targetsOf : Text → List Text) (s : ComponentSearch) (x y : Text) : Prop :=
  Edge targetsOf x y ∧ ∀ f ∈ s.frames, f.nodeId = x → y ∉ f.targets

/-- The frame is the last one entered before the node. -/
def Under (s : ComponentSearch) (f : VisitFrame) (x : Text) : Prop :=
  s.index f.nodeId ≤ s.index x ∧ ∀ g ∈ s.frames, s.index g.nodeId ≤ s.index x → s.index g.nodeId ≤ s.index f.nodeId

/-- The invariant between two turns; `but` are edges that are given but not yet followed. -/
structure InvariantBut (targetsOf : Text → List Text) (but : Text → Text → Prop) (s : ComponentSearch) : Prop where
  onStack_iff : ∀ x, s.onStack x = true ↔ x ∈ s.stack
  index_lt : ∀ x, s.Visited x → s.index x < s.nextIndex
  stack_visited : ∀ x ∈ s.stack, s.Visited x
  stack_sorted : s.stack.Pairwise fun x y => s.index y < s.index x
  frames_sorted : s.frames.Pairwise fun f g => s.index g.nodeId < s.index f.nodeId
  frames_stack : ∀ f ∈ s.frames, f.nodeId ∈ s.stack
  low_le : ∀ f ∈ s.frames, s.lowLink f.nodeId ≤ s.index f.nodeId
  low_reached : ∀ f ∈ s.frames, ∃ y ∈ s.stack, s.index y = s.lowLink f.nodeId ∧
    ReflTransGen (Edge targetsOf) f.nodeId y
  descends : ∀ f ∈ s.frames, ∀ y ∈ s.stack, s.index f.nodeId ≤ s.index y →
    ReflTransGen (Edge targetsOf) f.nodeId y
  ascends : ∀ x ∈ s.stack, ∃ f ∈ s.frames, s.index f.nodeId ≤ s.index x ∧
    ReflTransGen (Edge targetsOf) x f.nodeId
  processed_visited : ∀ x ∈ s.stack, ∀ y, s.Processed targetsOf x y → ¬ but x y → s.Visited y
  low_bound : ∀ x ∈ s.stack, ∀ y ∈ s.stack, s.Processed targetsOf x y → ¬ but x y →
    ∀ f ∈ s.frames, s.Under f x → s.lowLink f.nodeId ≤ s.index y
  components_iff : ∀ x, (∃ c ∈ s.components, x ∈ c) ↔ s.Visited x ∧ x ∉ s.stack
  done_closed : ∀ x, s.Visited x → x ∉ s.stack → ∀ y, Edge targetsOf x y → s.Visited y ∧ y ∉ s.stack
  components_connected : ∀ c ∈ s.components, ∀ x ∈ c, ∀ y, y ∈ c ↔ Connected (Edge targetsOf) x y
  components_nonempty : ∀ c ∈ s.components, c ≠ []
  components_sorted : ∀ c ∈ s.components, c.Pairwise (· < ·)
  components_disjoint : s.components.Pairwise List.Disjoint

abbrev Invariant (targetsOf : Text → List Text) (s : ComponentSearch) : Prop :=
  InvariantBut targetsOf (fun _ _ => False) s

theorem invariant_initial : Invariant targetsOf initial := by
  constructor <;> simp [initial, Visited]

/-! ## Entering a node -/

theorem index_enter : (s.enter targetsOf v).index x = if x = v then s.nextIndex else s.index x := by
  simp only [index, enter, Function.update_apply]
  split <;> rfl

theorem lowLink_enter : (s.enter targetsOf v).lowLink x = if x = v then s.nextIndex else s.lowLink x := by
  simp only [lowLink, enter, Function.update_apply]
  split <;> rfl

theorem visited_enter : (s.enter targetsOf v).Visited x ↔ x = v ∨ s.Visited x := by
  simp only [Visited, enter, Function.update_apply]
  split <;> simp [*]

variable {but : Text → Text → Prop}

/-- A node that is not visited is entered: the edges not followed yet lead to it, and the frames reach it. -/
theorem InvariantBut.enter (h : InvariantBut targetsOf but s) (hv : ¬ s.Visited v) (hbut : ∀ x y, but x y → y = v)
    (hreach : ∀ f ∈ s.frames, ReflTransGen (Edge targetsOf) f.nodeId v) : Invariant targetsOf (s.enter targetsOf v) := by
  have hne : ∀ x ∈ s.stack, x ≠ v := fun x hx hxv => hv (hxv ▸ h.stack_visited x hx)
  have hindex : ∀ x ∈ s.stack, (s.enter targetsOf v).index x = s.index x := fun x hx => by
    rw [index_enter, if_neg (hne x hx)]
  have hlow : ∀ x ∈ s.stack, (s.enter targetsOf v).lowLink x = s.lowLink x := fun x hx => by
    rw [lowLink_enter, if_neg (hne x hx)]
  have hself : (s.enter targetsOf v).index v = s.nextIndex := by rw [index_enter, if_pos rfl]
  have hlt : ∀ x ∈ s.stack, s.index x < s.nextIndex := fun x hx => h.index_lt x (h.stack_visited x hx)
  have hprocessed : ∀ x ∈ s.stack, ∀ y, (s.enter targetsOf v).Processed targetsOf x y → s.Processed targetsOf x y :=
    fun x _ y hp => ⟨hp.1, fun f hf => hp.2 f (.tail _ hf)⟩
  have hnew : ∀ y, ¬ (s.enter targetsOf v).Processed targetsOf v y := fun y hp =>
    hp.2 ⟨v, targetsOf v⟩ (.head _) rfl hp.1
  have hframe : ∀ f ∈ s.frames, f.nodeId ∈ s.stack := h.frames_stack
  have hunder : ∀ x ∈ s.stack, ∀ f ∈ s.frames, (s.enter targetsOf v).Under f x → s.Under f x := by
    intro x hx f hf hu
    rw [Under, hindex x hx, hindex _ (hframe f hf)] at hu
    refine ⟨hu.1, fun g hg hle => ?_⟩
    have := hu.2 g (.tail _ hg)
    rw [hindex _ (hframe g hg)] at this
    exact this hle
  exact {
    onStack_iff := fun x => by
      simp only [ComponentSearch.enter, Function.update_apply, List.mem_cons]
      split <;> simp [*, h.onStack_iff]
    index_lt := by
      intro x hx
      rw [index_enter]
      change _ < s.nextIndex + 1
      split
      · omega
      · exact Nat.lt_succ_of_lt (h.index_lt x ((visited_enter.mp hx).resolve_left ‹_›))
    stack_visited := List.forall_mem_cons.mpr
      ⟨visited_enter.mpr (.inl rfl), fun x hx => visited_enter.mpr (.inr (h.stack_visited x hx))⟩
    stack_sorted := by
      refine List.pairwise_cons.mpr ⟨fun x hx => ?_, ?_⟩
      · rw [hself, hindex x hx]
        exact hlt x hx
      · refine h.stack_sorted.imp_of_mem fun {x y} hx hy hxy => ?_
        rwa [hindex x hx, hindex y hy]
    frames_sorted := by
      refine List.pairwise_cons.mpr ⟨fun f hf => ?_, ?_⟩
      · change _ < index _ v
        rw [hself, hindex _ (hframe f hf)]
        exact hlt _ (hframe f hf)
      · refine h.frames_sorted.imp_of_mem fun {f g} hf hg hfg => ?_
        rwa [hindex _ (hframe f hf), hindex _ (hframe g hg)]
    frames_stack := List.forall_mem_cons.mpr ⟨.head _, fun f hf => .tail _ (hframe f hf)⟩
    low_le := by
      refine List.forall_mem_cons.mpr ⟨?_, fun f hf => ?_⟩
      · simp [lowLink_enter, index_enter]
      · rw [hlow _ (hframe f hf), hindex _ (hframe f hf)]
        exact h.low_le f hf
    low_reached := by
      refine List.forall_mem_cons.mpr ⟨⟨v, .head _, ?_, .refl⟩, fun f hf => ?_⟩
      · simp [lowLink_enter, index_enter]
      · obtain ⟨y, hy, hyl, hreached⟩ := h.low_reached f hf
        exact ⟨y, .tail _ hy, by rw [hlow _ (hframe f hf), hindex y hy, hyl], hreached⟩
    descends := by
      refine List.forall_mem_cons.mpr ⟨List.forall_mem_cons.mpr ⟨fun _ => .refl, fun y hy hle => ?_⟩, fun f hf => ?_⟩
      · rw [hself, hindex y hy] at hle
        exact absurd (hlt y hy) (not_lt.mpr hle)
      · refine List.forall_mem_cons.mpr ⟨fun _ => hreach f hf, fun y hy hle => ?_⟩
        rw [hindex _ (hframe f hf), hindex y hy] at hle
        exact h.descends f hf y hy hle
    ascends := by
      refine List.forall_mem_cons.mpr ⟨⟨_, .head _, le_rfl, .refl⟩, fun x hx => ?_⟩
      obtain ⟨f, hf, hle, hup⟩ := h.ascends x hx
      exact ⟨f, .tail _ hf, by rwa [hindex x hx, hindex _ (hframe f hf)], hup⟩
    processed_visited := by
      refine List.forall_mem_cons.mpr ⟨fun y hp _ => absurd hp (hnew y), fun x hx y hp _ => visited_enter.mpr ?_⟩
      by_cases hb : but x y
      · exact .inl (hbut x y hb)
      · exact .inr (h.processed_visited x hx y (hprocessed x hx y hp) hb)
    low_bound := by
      refine List.forall_mem_cons.mpr ⟨fun y _ hp => absurd hp (hnew y), fun x hx y hy hp _ f hmem hu => ?_⟩
      rcases List.mem_cons.mp hmem with rfl | hf
      · have hle := hu.1
        rw [hself, hindex x hx] at hle
        exact absurd (hlt x hx) (not_lt.mpr hle)
      have hle := h.low_le f hf
      rw [hlow _ (hframe f hf)]
      rcases List.mem_cons.mp hy with rfl | hy
      · rw [hself]
        exact (hle.trans (hlt _ (hframe f hf)).le)
      · rw [hindex y hy]
        have hb : ¬ but x y := fun hb => hne y hy (hbut x y hb)
        exact h.low_bound x hx y hy (hprocessed x hx y hp) hb f hf (hunder x hx f hf hu)
    components_iff := by
      intro x
      refine (h.components_iff x).trans ?_
      rw [visited_enter]
      constructor
      · rintro ⟨hvisited, hstack⟩
        have hxv : x ≠ v := fun hxv => hv (hxv ▸ hvisited)
        exact ⟨.inr hvisited, by simp [ComponentSearch.enter, hxv, hstack]⟩
      · rintro ⟨hvisited, hstack⟩
        simp only [ComponentSearch.enter, List.mem_cons, not_or] at hstack
        exact ⟨hvisited.resolve_left hstack.1, hstack.2⟩
    done_closed := by
      intro x hvisited hstack y hedge
      simp only [ComponentSearch.enter, List.mem_cons, not_or] at hstack
      obtain ⟨hy, hys⟩ := h.done_closed x ((visited_enter.mp hvisited).resolve_left hstack.1) hstack.2 y hedge
      have hyv : y ≠ v := fun hyv => hv (hyv ▸ hy)
      exact ⟨visited_enter.mpr (.inr hy), by simp [ComponentSearch.enter, hyv, hys]⟩
    components_connected := h.components_connected
    components_nonempty := h.components_nonempty
    components_sorted := h.components_sorted
    components_disjoint := h.components_disjoint }

/-! ## Following an edge inside the search -/

section Advance

variable {targets : List Text} {frames : List VisitFrame}

/-- The state after the frame on top has given a target. -/
theorem InvariantBut.given (h : Invariant targetsOf s) (hframes : s.frames = ⟨v, t :: targets⟩ :: frames) :
    InvariantBut targetsOf (fun x y => x = v ∧ y = t) { s with frames := ⟨v, targets⟩ :: frames } := by
  have hto : ∀ f ∈ (⟨v, targets⟩ :: frames : List VisitFrame), ∃ g ∈ s.frames, g.nodeId = f.nodeId := by
    rw [hframes]
    exact List.forall_mem_cons.mpr ⟨⟨_, .head _, rfl⟩, fun f hf => ⟨f, .tail _ hf, rfl⟩⟩
  have hfrom : ∀ g ∈ s.frames, ∃ f ∈ (⟨v, targets⟩ :: frames : List VisitFrame), f.nodeId = g.nodeId := by
    rw [hframes]
    exact List.forall_mem_cons.mpr ⟨⟨_, .head _, rfl⟩, fun f hf => ⟨f, .tail _ hf, rfl⟩⟩
  have hprocessed : ∀ x y, Processed targetsOf { s with frames := ⟨v, targets⟩ :: frames } x y →
      ¬ (x = v ∧ y = t) → s.Processed targetsOf x y := by
    intro x y hp hbut
    refine ⟨hp.1, ?_⟩
    rw [hframes]
    refine List.forall_mem_cons.mpr ⟨fun hx hy => ?_, fun f hf => hp.2 f (.tail _ hf)⟩
    rcases List.mem_cons.mp hy with rfl | hy
    · exact hbut ⟨hx.symm, rfl⟩
    · exact hp.2 _ (.head _) hx hy
  have hunder : ∀ x, ∀ f : VisitFrame, ∀ g : VisitFrame, g.nodeId = f.nodeId →
      Under { s with frames := ⟨v, targets⟩ :: frames } f x → s.Under g x := by
    intro x f g hgf hu
    refine ⟨hgf ▸ hu.1, fun k hk hle => ?_⟩
    obtain ⟨k', hk', hkk⟩ := hfrom k hk
    rw [hgf, ← hkk]
    exact hu.2 k' hk' (hkk ▸ hle)
  exact { h with
    frames_sorted := by
      have hsorted := h.frames_sorted
      rw [hframes] at hsorted
      exact List.pairwise_cons.mpr (List.pairwise_cons.mp hsorted)
    frames_stack := fun f hf => by
      obtain ⟨g, hg, hgf⟩ := hto f hf
      exact hgf ▸ h.frames_stack g hg
    low_le := fun f hf => by
      obtain ⟨g, hg, hgf⟩ := hto f hf
      exact hgf ▸ h.low_le g hg
    low_reached := fun f hf => by
      obtain ⟨g, hg, hgf⟩ := hto f hf
      exact hgf ▸ h.low_reached g hg
    descends := fun f hf => by
      obtain ⟨g, hg, hgf⟩ := hto f hf
      exact hgf ▸ h.descends g hg
    ascends := fun x hx => by
      obtain ⟨g, hg, hle, hup⟩ := h.ascends x hx
      obtain ⟨f, hf, hfg⟩ := hfrom g hg
      exact ⟨f, hf, hfg ▸ hle, hfg ▸ hup⟩
    processed_visited := fun x hx y hp hbut => h.processed_visited x hx y (hprocessed x y hp hbut) id
    low_bound := fun x hx y hy hp hbut f hf hu => by
      obtain ⟨g, hg, hgf⟩ := hto f hf
      exact hgf ▸ h.low_bound x hx y hy (hprocessed x y hp hbut) id g hg (hunder x f g hgf hu) }

/-- An edge to a node of a closed component is followed by doing nothing. -/
theorem InvariantBut.skip (h : InvariantBut targetsOf (fun x y => x = v ∧ y = t) s) (hvisited : s.Visited t)
    (hstack : t ∉ s.stack) : Invariant targetsOf s where
  __ := h
  processed_visited := fun x hx y hp _ => by
    by_cases hy : y = t
    · exact hy ▸ hvisited
    · exact h.processed_visited x hx y hp fun hbut => hy hbut.2
  low_bound := fun x hx y hy hp _ => by
    have hne : y ≠ t := fun hyt => hstack (hyt ▸ hy)
    exact h.low_bound x hx y hy hp fun hbut => hne hbut.2

theorem lowLink_lower {link : Nat} :
    (s.lower v link).lowLink x = if x = v then min (s.lowLink v) link else s.lowLink x := by
  simp only [lowLink, lower, Function.update_apply]
  split <;> rfl

theorem lowLink_lower_le {link : Nat} : (s.lower v link).lowLink x ≤ s.lowLink x := by
  rw [lowLink_lower]
  split
  next h => exact h ▸ min_le_left _ _
  next => exact le_rfl

/-- The link of a frame is lowered to the index of a node it reaches, which bounds the edges not followed yet. -/
theorem InvariantBut.lower (h : InvariantBut targetsOf but s) (ht : t ∈ s.stack)
    (hreach : ReflTransGen (Edge targetsOf) v t)
    (hvisited : ∀ x ∈ s.stack, ∀ y, s.Processed targetsOf x y → but x y → s.Visited y)
    (hbut : ∀ x ∈ s.stack, ∀ y ∈ s.stack, s.Processed targetsOf x y → but x y →
      ∀ f ∈ s.frames, s.Under f x → f.nodeId = v ∧ s.index t ≤ s.index y) :
    Invariant targetsOf (s.lower v (s.index t)) where
  __ := h
  low_le := fun f hf => lowLink_lower_le.trans (h.low_le f hf)
  low_reached := fun f hf => by
    rw [lowLink_lower]
    split
    next hfv =>
      rcases Nat.le_total (s.lowLink v) (s.index t) with hle | hle
      · obtain ⟨y, hy, hyl, hreached⟩ := h.low_reached f hf
        rw [Nat.min_eq_left hle, ← hfv]
        exact ⟨y, hy, hyl, hreached⟩
      · rw [Nat.min_eq_right hle]
        exact ⟨t, ht, rfl, hfv ▸ hreach⟩
    next => exact h.low_reached f hf
  processed_visited := fun x hx y hp _ => by
    by_cases hb : but x y
    · exact hvisited x hx y hp hb
    · exact h.processed_visited x hx y hp hb
  low_bound := fun x hx y hy hp _ f hf hu => by
    by_cases hb : but x y
    · obtain ⟨hfv, hle⟩ := hbut x hx y hy hp hb f hf hu
      rw [lowLink_lower, if_pos hfv]
      exact (min_le_right _ _).trans hle
    · exact lowLink_lower_le.trans (h.low_bound x hx y hy hp hb f hf hu)

/-- Nodes on the stack are told apart by their indices. -/
theorem InvariantBut.index_injective (h : InvariantBut targetsOf but s) (hx : x ∈ s.stack) (hy : y ∈ s.stack)
    (heq : s.index x = s.index y) : x = y := by
  by_contra hne
  have hpair : s.stack.Pairwise fun x y => s.index x ≠ s.index y := h.stack_sorted.imp fun hlt => (ne_of_lt hlt).symm
  have hsymm : Std.Symm fun x y => s.index x ≠ s.index y := ⟨fun _ _ hne => hne.symm⟩
  exact hpair.forall hx hy hne heq

/-- The frame on top was entered last. -/
theorem InvariantBut.le_top (h : InvariantBut targetsOf but s) {f g : VisitFrame} (hframes : s.frames = f :: frames)
    (hg : g ∈ s.frames) : s.index g.nodeId ≤ s.index f.nodeId := by
  have hsorted := h.frames_sorted
  rw [hframes] at hg hsorted
  rcases List.mem_cons.mp hg with rfl | hg
  · exact le_rfl
  · exact ((List.pairwise_cons.mp hsorted).1 g hg).le

/-- No frame but the one on top lies between it and the nodes entered since. -/
theorem InvariantBut.under_top (h : InvariantBut targetsOf but s) {f g : VisitFrame}
    (hframes : s.frames = f :: frames) (hle : s.index f.nodeId ≤ s.index x) (hg : g ∈ s.frames) (hu : s.Under g x) :
    g.nodeId = f.nodeId := by
  have hf : f ∈ s.frames := hframes ▸ List.mem_cons_self
  exact h.index_injective (h.frames_stack g hg) (h.frames_stack f hf)
    (le_antisymm (h.le_top hframes hg) (hu.2 f hf hle))

theorem invariant_advance (h : Invariant targetsOf s) (hframes : s.frames = ⟨v, t :: targets⟩ :: frames)
    (hedge : Edge targetsOf v t) :
    Invariant targetsOf (advance targetsOf v t { s with frames := ⟨v, targets⟩ :: frames }) := by
  have hgiven := h.given hframes
  have hvstack : v ∈ s.stack := h.frames_stack ⟨v, t :: targets⟩ (hframes ▸ List.mem_cons_self)
  unfold advance
  split
  next hnew =>
    refine hgiven.enter (by simpa [Visited] using hnew) (fun _ _ hb => hb.2) fun f hf => ?_
    exact (hgiven.descends f hf v hvstack (hgiven.le_top rfl hf)).tail hedge
  next hold =>
    have hvisited : s.Visited t := Option.isSome_iff_ne_none.mpr hold
    split
    next hon =>
      have htstack : t ∈ s.stack := (h.onStack_iff t).mp hon
      refine hgiven.lower htstack (.single hedge) (fun _ _ y _ hb => hb.2 ▸ hvisited) ?_
      rintro x hx y hy - ⟨rfl, rfl⟩ f hf hu
      exact ⟨hgiven.under_top rfl le_rfl hf hu, le_rfl⟩
    next hon => exact hgiven.skip hvisited fun hmem => hon ((h.onStack_iff t).mpr hmem)

end Advance

/-! ## Leaving a frame -/

section Leave

variable {frames : List VisitFrame}

theorem popMembers_append {stack : List Text} (hv : v ∈ stack) :
    (popMembers v stack).1 ++ (popMembers v stack).2 = stack := by
  induction stack with
  | nil => cases hv
  | cons m stack ih =>
      rw [popMembers]
      split
      · rfl
      next hne =>
        have hv := (List.mem_cons.mp hv).resolve_left (Ne.symm hne)
        exact congrArg (m :: ·) (ih hv)

/-- On a stack sorted by indices, the popped members are the ones entered since. -/
theorem mem_popMembers {stack : List Text} {index : Text → Nat} (hv : v ∈ stack)
    (hsorted : stack.Pairwise fun x y => index y < index x) :
    (∀ x, x ∈ (popMembers v stack).1 ↔ x ∈ stack ∧ index v ≤ index x) ∧
      ∀ x, x ∈ (popMembers v stack).2 ↔ x ∈ stack ∧ index x < index v := by
  induction stack with
  | nil => cases hv
  | cons m stack ih =>
      obtain ⟨hm, hsorted⟩ := List.pairwise_cons.mp hsorted
      rw [popMembers]
      split
      next hmv =>
        subst hmv
        refine ⟨fun x => ?_, fun x => ?_⟩
        · constructor
          · intro hx
            cases List.mem_singleton.mp hx
            exact ⟨.head _, le_rfl⟩
          · rintro ⟨hx, hle⟩
            rcases List.mem_cons.mp hx with rfl | hx
            · exact .head _
            · exact absurd (hm x hx) (not_lt.mpr hle)
        · constructor
          · exact fun hx => ⟨.tail _ hx, hm x hx⟩
          · rintro ⟨hx, hlt⟩
            rcases List.mem_cons.mp hx with rfl | hx
            · exact absurd hlt (lt_irrefl _)
            · exact hx
      next hne =>
        have hbelow := (List.mem_cons.mp hv).resolve_left (Ne.symm hne)
        obtain ⟨hpopped, hrest⟩ := ih hbelow hsorted
        refine ⟨fun x => ?_, fun x => ?_⟩
        · rw [List.mem_cons, List.mem_cons, hpopped]
          constructor
          · rintro (rfl | ⟨hx, hle⟩)
            · exact ⟨.inl rfl, (hm v hbelow).le⟩
            · exact ⟨.inr hx, hle⟩
          · rintro ⟨rfl | hx, hle⟩
            · exact .inl rfl
            · exact .inr ⟨hx, hle⟩
        · rw [hrest, List.mem_cons]
          constructor
          · exact fun ⟨hx, hlt⟩ => ⟨.inr hx, hlt⟩
          · rintro ⟨rfl | hx, hlt⟩
            · exact absurd (hm v hbelow) (not_lt.mpr hlt.le)
            · exact ⟨hx, hlt⟩

/-- With the frame on top exhausted, every edge of the nodes entered since is processed. -/
theorem InvariantBut.processed_top (h : Invariant targetsOf s) (hframes : s.frames = ⟨v, []⟩ :: frames)
    (hle : s.index v ≤ s.index x) (hedge : Edge targetsOf x y) : s.Processed targetsOf x y := by
  refine ⟨hedge, fun f hf hfx => ?_⟩
  have hsorted := h.frames_sorted
  rw [hframes] at hf hsorted
  rcases List.mem_cons.mp hf with rfl | hf
  · exact List.not_mem_nil
  · have hlt := (List.pairwise_cons.mp hsorted).1 f hf
    rw [hfx] at hlt
    exact absurd hlt (not_lt.mpr hle)

/-- What a processed edge without a frame in between still says once the exhausted frame is gone. -/
theorem processed_of_left (hframes : s.frames = ⟨v, []⟩ :: frames)
    (hp : Processed targetsOf { s with frames := frames } x y) : s.Processed targetsOf x y := by
  refine ⟨hp.1, ?_⟩
  rw [hframes]
  exact List.forall_mem_cons.mpr ⟨fun _ => List.not_mem_nil, hp.2⟩

/-- Every node entered since the frame on top is connected to it. -/
theorem InvariantBut.connected_top (h : Invariant targetsOf s) (hframes : s.frames = ⟨v, []⟩ :: frames)
    (hx : x ∈ s.stack) (hle : s.index v ≤ s.index x) : Connected (Edge targetsOf) v x := by
  have hmem : ⟨v, []⟩ ∈ s.frames := hframes ▸ List.mem_cons_self
  refine ⟨h.descends _ hmem x hx hle, ?_⟩
  obtain ⟨f, hf, -, hup⟩ := h.ascends x hx
  exact hup.trans (h.descends f hf v (h.frames_stack _ hmem) (h.le_top hframes hf))

/-- A frame on top whose low link is its own index: no edge leads from the nodes entered since to one entered before
on the stack. -/
theorem InvariantBut.closed_top (h : Invariant targetsOf s) (hframes : s.frames = ⟨v, []⟩ :: frames)
    (hlow : s.lowLink v = s.index v) (hx : x ∈ s.stack) (hle : s.index v ≤ s.index x) (hedge : Edge targetsOf x y) :
    s.Visited y ∧ (y ∈ s.stack → s.index v ≤ s.index y) := by
  have hp := h.processed_top hframes hle hedge
  refine ⟨h.processed_visited x hx y hp id, fun hy => ?_⟩
  rw [← hlow]
  exact h.low_bound x hx y hy hp id ⟨v, []⟩ (hframes ▸ List.mem_cons_self) ⟨hle, fun g hg _ => h.le_top hframes hg⟩

/-- These nodes are its component. -/
theorem InvariantBut.component_top (h : Invariant targetsOf s) (hframes : s.frames = ⟨v, []⟩ :: frames)
    (hlow : s.lowLink v = s.index v) (x : Text) :
    (x ∈ s.stack ∧ s.index v ≤ s.index x) ↔ Connected (Edge targetsOf) v x := by
  have hv : v ∈ s.stack := h.frames_stack ⟨v, []⟩ (hframes ▸ List.mem_cons_self)
  refine component_iff (p := fun x => x ∈ s.stack ∧ s.index v ≤ s.index x) (q := fun x => s.Visited x ∧ x ∉ s.stack)
    (fun x hx => h.connected_top hframes hx.1 hx.2) ⟨hv, le_rfl⟩ (fun x hx y hedge => ?_)
    (fun x hx y hedge => h.done_closed x hx.1 hx.2 y hedge) (fun hdone => hdone.2 hv)
  obtain ⟨hvisited, hle⟩ := h.closed_top hframes hlow hx.1 hx.2 hedge
  by_cases hy : y ∈ s.stack
  · exact .inl ⟨hy, hle hy⟩
  · exact .inr ⟨hvisited, hy⟩

/-- What an exhausted frame leaves behind: the frames below it were entered before. -/
theorem InvariantBut.below (h : Invariant targetsOf s) (hframes : s.frames = ⟨v, []⟩ :: frames) :
    v ∈ s.stack ∧ (∀ f ∈ frames, f ∈ s.frames ∧ s.index f.nodeId < s.index v) ∧
      ∀ f ∈ s.frames, s.index f.nodeId < s.index v → f ∈ frames := by
  have hsorted := h.frames_sorted
  rw [hframes] at hsorted
  refine ⟨h.frames_stack ⟨v, []⟩ (hframes ▸ List.mem_cons_self), fun f hf => ⟨hframes ▸ .tail _ hf, ?_⟩, fun f hf hlt => ?_⟩
  · exact (List.pairwise_cons.mp hsorted).1 f hf
  · rw [hframes] at hf
    rcases List.mem_cons.mp hf with rfl | hf
    · exact absurd hlt (lt_irrefl _)
    · exact hf

theorem invariant_close (h : Invariant targetsOf s) (hframes : s.frames = ⟨v, []⟩ :: frames)
    (hlow : s.lowLink v = s.index v) : Invariant targetsOf (closeComponent v { s with frames := frames }) := by
  obtain ⟨hv, hbelow, hkept⟩ := h.below hframes
  obtain ⟨hpopped, hrest⟩ := mem_popMembers hv h.stack_sorted
  have hcomponent := h.component_top hframes hlow
  have hsplit : ∀ x, x ∈ s.stack ↔ x ∈ (popMembers v s.stack).1 ∨ x ∈ (popMembers v s.stack).2 := fun x => by
    rw [← List.mem_append, popMembers_append hv]
  have hdisjoint : ∀ x ∈ (popMembers v s.stack).1, x ∉ (popMembers v s.stack).2 := fun x hx hx' =>
    absurd ((hrest x).mp hx').2 (not_lt.mpr ((hpopped x).mp hx).2)
  have hmem : ∀ x, x ∈ sortBy id (popMembers v s.stack).1 ↔ Connected (Edge targetsOf) v x := fun x =>
    mem_sortBy.trans ((hpopped x).trans (hcomponent x))
  have hnodup : (popMembers v s.stack).1.Nodup := by
    have hstack : s.stack.Nodup := h.stack_sorted.imp fun {x y} hlt heq => by
      rw [heq] at hlt
      exact lt_irrefl _ hlt
    rw [← popMembers_append hv] at hstack
    exact (List.nodup_append.mp hstack).1
  exact {
    onStack_iff := fun x => by
      simp only [closeComponent, Bool.and_eq_true, Bool.not_eq_true', List.contains_eq_mem, decide_eq_false_iff_not,
        h.onStack_iff, hsplit]
      exact ⟨fun hx => hx.1.resolve_left hx.2, fun hx => ⟨.inr hx, fun hx' => hdisjoint x hx' hx⟩⟩
    index_lt := h.index_lt
    stack_visited := fun x hx => h.stack_visited x ((hrest x).mp hx).1
    stack_sorted := by
      have hstack := h.stack_sorted
      rw [← popMembers_append hv] at hstack
      exact (List.pairwise_append.mp hstack).2.1
    frames_sorted := by
      have hsorted := h.frames_sorted
      rw [hframes] at hsorted
      exact (List.pairwise_cons.mp hsorted).2
    frames_stack := fun f hf => (hrest _).mpr ⟨h.frames_stack f (hbelow f hf).1, (hbelow f hf).2⟩
    low_le := fun f hf => h.low_le f (hbelow f hf).1
    low_reached := fun f hf => by
      obtain ⟨y, hy, hyl, hreached⟩ := h.low_reached f (hbelow f hf).1
      have hlt : s.index y < s.index v := hyl ▸ (h.low_le f (hbelow f hf).1).trans_lt (hbelow f hf).2
      exact ⟨y, (hrest y).mpr ⟨hy, hlt⟩, hyl, hreached⟩
    descends := fun f hf y hy => h.descends f (hbelow f hf).1 y ((hrest y).mp hy).1
    ascends := fun x hx => by
      obtain ⟨hx, hlt⟩ := (hrest x).mp hx
      obtain ⟨f, hf, hle, hup⟩ := h.ascends x hx
      exact ⟨f, hkept f hf (hle.trans_lt hlt), hle, hup⟩
    processed_visited := fun x hx y hp _ =>
      h.processed_visited x ((hrest x).mp hx).1 y (processed_of_left hframes hp) id
    low_bound := fun x hx y hy hp _ f hf hu => by
      obtain ⟨hx, hlt⟩ := (hrest x).mp hx
      refine h.low_bound x hx y ((hrest y).mp hy).1 (processed_of_left hframes hp) id f (hbelow f hf).1 ?_
      exact ⟨hu.1, fun g hg hle => hu.2 g (hkept g hg (hle.trans_lt hlt)) hle⟩
    components_iff := fun x => by
      have hold := h.components_iff x
      simp only [closeComponent, List.mem_append, List.mem_singleton, or_and_right, exists_or, exists_eq_left, hold]
      constructor
      · rintro (⟨hvisited, hx⟩ | hx)
        · exact ⟨hvisited, fun hx' => hx ((hrest x).mp hx').1⟩
        · have hx := mem_sortBy.mp hx
          exact ⟨h.stack_visited x ((hpopped x).mp hx).1, hdisjoint x hx⟩
      · rintro ⟨hvisited, hx⟩
        by_cases hstack : x ∈ s.stack
        · exact .inr (mem_sortBy.mpr (((hsplit x).mp hstack).resolve_right hx))
        · exact .inl ⟨hvisited, hstack⟩
    done_closed := fun x hvisited hx y hedge => by
      by_cases hstack : x ∈ s.stack
      · have hpop := (hpopped x).mp (((hsplit x).mp hstack).resolve_right hx)
        obtain ⟨hy, hle⟩ := h.closed_top hframes hlow hstack hpop.2 hedge
        exact ⟨hy, fun hy' => absurd ((hrest y).mp hy').2 (not_lt.mpr (hle ((hrest y).mp hy').1))⟩
      · obtain ⟨hy, hys⟩ := h.done_closed x hvisited hstack y hedge
        exact ⟨hy, fun hy' => hys ((hrest y).mp hy').1⟩
    components_connected := by
      refine List.forall_mem_append.mpr ⟨h.components_connected, List.forall_mem_singleton.mpr fun x hx y => ?_⟩
      have hx := (hmem x).mp hx
      rw [hmem]
      exact ⟨fun hy => hx.symm.trans hy, fun hy => hx.trans hy⟩
    components_nonempty := List.forall_mem_append.mpr ⟨h.components_nonempty,
      List.forall_mem_singleton.mpr (List.ne_nil_of_mem ((hmem v).mpr (.refl v)))⟩
    components_sorted := by
      refine List.forall_mem_append.mpr ⟨h.components_sorted, List.forall_mem_singleton.mpr ?_⟩
      exact sortBy_id_strict hnodup
    components_disjoint := by
      refine List.pairwise_append.mpr ⟨h.components_disjoint, List.pairwise_singleton _ _, fun c hc d hd x hx hx' => ?_⟩
      cases List.mem_singleton.mp hd
      exact ((h.components_iff x).mp ⟨c, hc, hx⟩).2 ((hpopped x).mp (mem_sortBy.mp hx')).1 }

/-- An exhausted frame whose low link is not its own index reaches an earlier frame. -/
theorem InvariantBut.ascends_below (h : Invariant targetsOf s) (hframes : s.frames = ⟨v, []⟩ :: frames)
    (hlow : s.lowLink v ≠ s.index v) :
    ∃ y ∈ s.stack, s.index y = s.lowLink v ∧ ReflTransGen (Edge targetsOf) v y ∧
      ∃ g ∈ frames, s.index g.nodeId ≤ s.index y ∧ ReflTransGen (Edge targetsOf) y g.nodeId := by
  have hmem : ⟨v, []⟩ ∈ s.frames := hframes ▸ List.mem_cons_self
  obtain ⟨-, -, hkept⟩ := h.below hframes
  obtain ⟨y, hy, hyl, hreached⟩ := h.low_reached _ hmem
  obtain ⟨g, hg, hle, hup⟩ := h.ascends y hy
  have hlt : s.index y < s.index v := hyl ▸ lt_of_le_of_ne (h.low_le _ hmem) hlow
  exact ⟨y, hy, hyl, hreached, g, hkept g hg (hle.trans_lt hlt), hle, hup⟩

/-- Without the exhausted frame only the bounds of the part of the stack above it are missing. -/
theorem InvariantBut.left (h : Invariant targetsOf s) (hframes : s.frames = ⟨v, []⟩ :: frames)
    (hlow : s.lowLink v ≠ s.index v) :
    InvariantBut targetsOf (fun x _ => s.index v ≤ s.index x) { s with frames := frames } where
  __ := h
  frames_sorted := by
    have hsorted := h.frames_sorted
    rw [hframes] at hsorted
    exact (List.pairwise_cons.mp hsorted).2
  frames_stack := fun f hf => h.frames_stack f ((h.below hframes).2.1 f hf).1
  low_le := fun f hf => h.low_le f ((h.below hframes).2.1 f hf).1
  low_reached := fun f hf => h.low_reached f ((h.below hframes).2.1 f hf).1
  descends := fun f hf => h.descends f ((h.below hframes).2.1 f hf).1
  ascends := fun x hx => by
    obtain ⟨hv, hbelow, hkept⟩ := h.below hframes
    obtain ⟨f, hf, hle, hup⟩ := h.ascends x hx
    by_cases hlt : s.index f.nodeId < s.index v
    · exact ⟨f, hkept f hf hlt, hle, hup⟩
    · have hfv : f.nodeId = v :=
        h.index_injective (h.frames_stack f hf) hv (le_antisymm (h.le_top hframes hf) (not_lt.mp hlt))
      obtain ⟨y, hy, hyl, hreached, g, hg, hgle, hgup⟩ := h.ascends_below hframes hlow
      refine ⟨g, hg, ((hbelow g hg).2.le.trans ?_), hfv ▸ hup |>.trans (hreached.trans hgup)⟩
      exact hfv ▸ hle
  processed_visited := fun x hx y hp _ => h.processed_visited x hx y (processed_of_left hframes hp) id
  low_bound := fun x hx y hy hp hbut f hf hu => by
    obtain ⟨-, hbelow, hkept⟩ := h.below hframes
    refine h.low_bound x hx y hy (processed_of_left hframes hp) id f (hbelow f hf).1 ⟨hu.1, fun g hg hle => ?_⟩
    exact hu.2 g (hkept g hg (hle.trans_lt (not_le.mp hbut))) hle

/-- The frame below an open part of the stack takes over its low link. -/
theorem invariant_merge {parent : VisitFrame} {rest : List VisitFrame} (h : Invariant targetsOf s)
    (hframes : s.frames = ⟨v, []⟩ :: parent :: rest) (hlow : s.lowLink v ≠ s.index v) :
    Invariant targetsOf (lower parent.nodeId (s.lowLink v) { s with frames := parent :: rest }) := by
  have hleft := h.left hframes hlow
  obtain ⟨hv, hbelow, -⟩ := h.below hframes
  obtain ⟨hparent, hlt⟩ := hbelow parent (.head _)
  obtain ⟨y, hy, hyl, hreached, -⟩ := h.ascends_below hframes hlow
  rw [← hyl]
  refine hleft.lower hy ((h.descends parent hparent v hv hlt.le).trans hreached)
    (fun x hx y hp _ => h.processed_visited x hx y (processed_of_left hframes hp) id) ?_
  intro x hx z hz hp hle f hf hu
  refine ⟨hleft.under_top rfl (hlt.le.trans hle) hf hu, ?_⟩
  change s.index y ≤ s.index z
  rw [hyl]
  exact h.low_bound x hx z hz (processed_of_left hframes hp) id ⟨v, []⟩ (hframes ▸ List.mem_cons_self)
    ⟨hle, fun g hg _ => h.le_top hframes hg⟩

/-- A link that is not lowered leaves the invariant as it is. -/
theorem InvariantBut.lower_of_le {link : Nat} (h : Invariant targetsOf s) (hle : s.lowLink v ≤ link) :
    Invariant targetsOf (s.lower v link) := by
  have hsame : ∀ x, (s.lower v link).lowLink x = s.lowLink x := fun x => by
    rw [lowLink_lower]
    split
    next hxv => rw [Nat.min_eq_left hle, hxv]
    next => rfl
  exact { h with
    low_le := fun f hf => hsame f.nodeId ▸ h.low_le f hf
    low_reached := fun f hf => hsame f.nodeId ▸ h.low_reached f hf
    low_bound := fun x hx y hy hp hbut f hf hu => hsame f.nodeId ▸ h.low_bound x hx y hy hp hbut f hf hu }

theorem invariant_leave (h : Invariant targetsOf s) (hframes : s.frames = ⟨v, []⟩ :: frames) :
    Invariant targetsOf (leave v { s with frames := frames }) := by
  obtain ⟨-, hbelow, -⟩ := h.below hframes
  unfold leave
  by_cases hlow : s.lowLink v = s.index v
  · have hclose := invariant_close h hframes hlow
    have hif : (if lowLink { s with frames := frames } v = index { s with frames := frames } v then
        closeComponent v { s with frames := frames } else { s with frames := frames }) =
        closeComponent v { s with frames := frames } := if_pos hlow
    rw [hif]
    cases frames with
    | nil => exact hclose
    | cons parent rest =>
        refine InvariantBut.lower_of_le hclose ?_
        have hlink : (closeComponent v { s with frames := parent :: rest }).lowLink v = s.index v := hlow
        rw [hlink]
        exact (h.low_le parent (hbelow parent (.head _)).1).trans (hbelow parent (.head _)).2.le
  · have hif : (if lowLink { s with frames := frames } v = index { s with frames := frames } v then
        closeComponent v { s with frames := frames } else { s with frames := frames }) =
        { s with frames := frames } := if_neg hlow
    rw [hif]
    cases frames with
    | nil =>
        obtain ⟨y, -, -, -, g, hg, -⟩ := h.ascends_below hframes hlow
        cases hg
    | cons parent rest => exact invariant_merge (s := s) h hframes hlow

end Leave

/-! ## The loops -/

section Loops

variable {nodes : List Text} {s' : ComponentSearch}

/-- A search inside a closed set of nodes. -/
structure Searching (targetsOf : Text → List Text) (nodes : List Text) (s : ComponentSearch) : Prop where
  invariant : Invariant targetsOf s
  frames_targets : ∀ f ∈ s.frames, ∀ t ∈ f.targets, Edge targetsOf f.nodeId t
  visited_nodes : ∀ x, s.Visited x → x ∈ nodes

/-- The turns left: one for each frame and each target not given yet, and as many for the nodes not visited. -/
def work (targetsOf : Text → List Text) (nodes : List Text) (s : ComponentSearch) : Nat :=
  (s.frames.map fun f => f.targets.length + 1).sum +
    (nodes.map fun x => if (s.indexByNodeId x).isNone then (targetsOf x).length + 1 else 0).sum

/-- A sum loses the summand of the one entry where the functions differ. -/
theorem sum_map_erase {f g : Text → Nat} {xs : List Text} (hnodup : xs.Nodup) (hv : v ∈ xs)
    (hne : ∀ x, x ≠ v → f x = g x) (hzero : g v = 0) : (xs.map f).sum = f v + (xs.map g).sum := by
  induction xs with
  | nil => cases hv
  | cons m xs ih =>
      obtain ⟨hm, hnodup⟩ := List.nodup_cons.mp hnodup
      rw [List.map_cons, List.map_cons, List.sum_cons, List.sum_cons]
      rcases List.mem_cons.mp hv with rfl | hv
      · have hrest : xs.map f = xs.map g := List.map_congr_left fun x hx => hne x fun hxv => hm (hxv ▸ hx)
        rw [hrest, hzero]
        omega
      · rw [ih hnodup hv, hne m fun hmv => hm (hmv ▸ hv)]
        omega

theorem work_enter (hnodup : nodes.Nodup) (hv : v ∈ nodes) (hnew : s.indexByNodeId v = none) :
    work targetsOf nodes (s.enter targetsOf v) = work targetsOf nodes s := by
  have hsum := sum_map_erase (v := v)
    (f := fun x => if (s.indexByNodeId x).isNone then (targetsOf x).length + 1 else 0)
    (g := fun x => if ((s.enter targetsOf v).indexByNodeId x).isNone then (targetsOf x).length + 1 else 0) hnodup hv
    (fun x hx => by simp [ComponentSearch.enter, hx]) (by simp [ComponentSearch.enter])
  unfold work
  rw [hsum]
  simp [ComponentSearch.enter, hnew]
  omega

theorem leave_keeps : (leave v s).frames = s.frames ∧ (leave v s).indexByNodeId = s.indexByNodeId := by
  have hclosed : (if s.lowLink v = s.index v then s.closeComponent v else s).frames = s.frames ∧
      (if s.lowLink v = s.index v then s.closeComponent v else s).indexByNodeId = s.indexByNodeId := by
    split <;> exact ⟨rfl, rfl⟩
  unfold leave
  dsimp only
  split
  · exact hclosed
  · exact hclosed

/-- A turn keeps the invariant and what is visited, and takes one off the work left. -/
theorem Searching.step (h : Searching targetsOf nodes s) (hnodup : nodes.Nodup)
    (hnodes : ∀ x ∈ nodes, ∀ y, Edge targetsOf x y → y ∈ nodes) (hstep : s.step targetsOf = some s') :
    Searching targetsOf nodes s' ∧ work targetsOf nodes s' < work targetsOf nodes s ∧ ∀ x, s.Visited x → s'.Visited x := by
  unfold ComponentSearch.step at hstep
  split at hstep
  next => cases hstep
  next nodeId target targets frames hframes =>
    cases hstep
    have hedge : Edge targetsOf nodeId target :=
      h.frames_targets ⟨nodeId, target :: targets⟩ (hframes ▸ List.mem_cons_self) target (.head _)
    have hframe : ⟨nodeId, target :: targets⟩ ∈ s.frames := hframes ▸ List.mem_cons_self
    have htarget : target ∈ nodes := hnodes _ (h.visited_nodes nodeId
      (h.invariant.stack_visited _ (h.invariant.frames_stack _ hframe))) _ hedge
    have hgiven : ∀ f ∈ (⟨nodeId, targets⟩ :: frames : List VisitFrame), ∀ t ∈ f.targets, Edge targetsOf f.nodeId t := by
      have htargets := h.frames_targets
      rw [hframes] at htargets
      obtain ⟨htop, hrest⟩ := List.forall_mem_cons.mp htargets
      exact List.forall_mem_cons.mpr ⟨fun t ht => htop t (.tail _ ht), hrest⟩
    have hwork : work targetsOf nodes { s with frames := ⟨nodeId, targets⟩ :: frames } < work targetsOf nodes s := by
      unfold work
      simp only [hframes, List.map_cons, List.sum_cons, List.length_cons]
      omega
    have hinvariant := invariant_advance h.invariant hframes hedge
    revert hinvariant
    unfold advance
    split
    next hnew =>
      refine fun hinvariant => ⟨⟨hinvariant, ?_, ?_⟩, ?_, fun x hx => visited_enter.mpr (.inr hx)⟩
      · exact List.forall_mem_cons.mpr ⟨fun t ht => ht, hgiven⟩
      · intro x hx
        rcases visited_enter.mp hx with rfl | hx
        · exact htarget
        · exact h.visited_nodes x hx
      · rwa [work_enter hnodup htarget hnew]
    next =>
      split
      · exact fun hinvariant => ⟨⟨hinvariant, hgiven, h.visited_nodes⟩, hwork, fun _ hx => hx⟩
      · exact fun hinvariant => ⟨⟨hinvariant, hgiven, h.visited_nodes⟩, hwork, fun _ hx => hx⟩
  next nodeId frames hframes =>
    cases hstep
    obtain ⟨hsame, hindex⟩ := leave_keeps (v := nodeId) (s := { s with frames := frames })
    refine ⟨⟨invariant_leave h.invariant hframes, ?_, ?_⟩, ?_, ?_⟩
    · rw [hsame]
      exact fun f hf => h.frames_targets f (hframes ▸ .tail _ hf)
    · intro x hx
      rw [Visited, hindex] at hx
      exact h.visited_nodes x hx
    · unfold work
      simp only [hsame, hindex, hframes, List.map_cons, List.sum_cons]
      omega
    · intro x hx
      rwa [Visited, hindex]

/-- The inner loop ends without frames when it may take as many turns as there is work. -/
theorem Searching.drain {fuel : Nat} (h : Searching targetsOf nodes s) (hnodup : nodes.Nodup)
    (hnodes : ∀ x ∈ nodes, ∀ y, Edge targetsOf x y → y ∈ nodes) (hfuel : work targetsOf nodes s ≤ fuel) :
    ∃ s', s.drain targetsOf fuel = some s' ∧ Searching targetsOf nodes s' ∧ s'.frames = [] ∧
      work targetsOf nodes s' ≤ work targetsOf nodes s ∧ ∀ x, s.Visited x → s'.Visited x := by
  induction fuel generalizing s with
  | zero =>
      have hempty : s.frames = [] := by
        cases hframes : s.frames with
        | nil => rfl
        | cons f frames =>
            unfold work at hfuel
            simp [hframes] at hfuel
      exact ⟨s, by simp [ComponentSearch.drain, hempty], h, hempty, le_rfl, fun _ hx => hx⟩
  | succ fuel ih =>
      rw [ComponentSearch.drain]
      cases hstep : s.step targetsOf with
      | none =>
          refine ⟨s, rfl, h, ?_, le_rfl, fun _ hx => hx⟩
          unfold ComponentSearch.step at hstep
          split at hstep <;> first | assumption | cases hstep
      | some next =>
          obtain ⟨hnext, hlt, hvisited⟩ := h.step hnodup hnodes hstep
          obtain ⟨s', hdrain, hs', hempty, hle, hkept⟩ := ih hnext (by omega)
          exact ⟨s', hdrain, hs', hempty, hle.trans hlt.le, fun x hx => hkept x (hvisited x hx)⟩

theorem InvariantBut.stack_empty (h : Invariant targetsOf s) (hframes : s.frames = []) : s.stack = [] := by
  refine List.eq_nil_iff_forall_not_mem.mpr fun x hx => ?_
  obtain ⟨f, hf, -⟩ := h.ascends x hx
  rw [hframes] at hf
  cases hf

/-- The outer loop visits every root. -/
theorem Searching.visitRoots {fuel : Nat} {roots : List Text} (h : Searching targetsOf nodes s)
    (hframes : s.frames = []) (hnodup : nodes.Nodup) (hnodes : ∀ x ∈ nodes, ∀ y, Edge targetsOf x y → y ∈ nodes)
    (hroots : ∀ x ∈ roots, x ∈ nodes) (hfuel : work targetsOf nodes s ≤ fuel) :
    ∃ s', ComponentSearch.visitRoots targetsOf fuel roots s = some s' ∧ Searching targetsOf nodes s' ∧ s'.frames = [] ∧
      (∀ x, s.Visited x → s'.Visited x) ∧ ∀ x ∈ roots, s'.Visited x := by
  induction roots generalizing s with
  | nil => exact ⟨s, rfl, h, hframes, fun _ hx => hx, nofun⟩
  | cons root roots ih =>
      obtain ⟨hroot, hroots⟩ := List.forall_mem_cons.mp hroots
      rw [ComponentSearch.visitRoots]
      split
      next hvisited =>
        obtain ⟨s', hrun, hs', hempty, hkept, hall⟩ := ih h hframes hroots hfuel
        exact ⟨s', hrun, hs', hempty, hkept, List.forall_mem_cons.mpr ⟨hkept root hvisited, hall⟩⟩
      next hnew =>
        have hnone : s.indexByNodeId root = none := by simpa using hnew
        have hentered : Searching targetsOf nodes (s.enter targetsOf root) := by
          refine ⟨h.invariant.enter hnew nofun (by simp [hframes]), ?_, fun x hx => ?_⟩
          · simp [ComponentSearch.enter, hframes, Edge]
          · rcases visited_enter.mp hx with rfl | hx
            · exact hroot
            · exact h.visited_nodes x hx
        obtain ⟨drained, hdrain, hsearching, hempty, hle, hkept⟩ := hentered.drain hnodup hnodes
          (show work targetsOf nodes (s.enter targetsOf root) ≤ fuel by rwa [work_enter hnodup hroot hnone])
        rw [work_enter hnodup hroot hnone] at hle
        obtain ⟨s', hrun, hs', hempty', hkept', hall⟩ := ih hsearching hempty hroots (hle.trans hfuel)
        refine ⟨s', by rw [hdrain]; exact hrun, hs', hempty', fun x hx => ?_, List.forall_mem_cons.mpr ⟨?_, hall⟩⟩
        · exact hkept' x (hkept x (visited_enter.mpr (.inr hx)))
        · exact hkept' root (hkept root (visited_enter.mpr (.inl rfl)))

end Loops

/-! ## The components -/

theorem work_initial (nodes : List Text) : work targetsOf nodes initial = searchFuel targetsOf nodes := by
  simp [work, initial, searchFuel]

/-- Components that share no point are told apart by their heads. -/
theorem sortedComponents_sortBy {components : List (List Text)} {p : Text → Prop} {r : Text → Text → Prop}
    (hnonempty : ∀ c ∈ components, c ≠ []) (hcovers : ∀ a, (∃ c ∈ components, a ∈ c) ↔ p a)
    (hconnected : ∀ c ∈ components, ∀ a ∈ c, ∀ b, b ∈ c ↔ Connected r a b)
    (hsorted : ∀ c ∈ components, c.Pairwise (· < ·)) (hdisjoint : components.Pairwise List.Disjoint) :
    SortedComponents r p (sortBy (fun component => component.headD []) components) where
  nonempty := fun c hc => hnonempty c (mem_sortBy.mp hc)
  covers := fun a => by
    rw [← hcovers a]
    exact exists_congr fun c => and_congr_left fun _ => mem_sortBy
  connected := fun c hc => hconnected c (mem_sortBy.mp hc)
  sorted := fun c hc => hsorted c (mem_sortBy.mp hc)
  ordered := by
    have hpairs : (sortBy (fun component : List Text => component.headD []) components).Pairwise List.Disjoint :=
      (sortBy_perm components).pairwise_iff (fun h => h.symm) |>.mpr hdisjoint
    refine (List.Pairwise.and (sortBy_pairwise components) hpairs).imp_of_mem fun {c d} hc hd ⟨hle, hne⟩ => ?_
    obtain ⟨a, c, rfl⟩ := List.exists_cons_of_ne_nil (hnonempty c (mem_sortBy.mp hc))
    obtain ⟨b, d, rfl⟩ := List.exists_cons_of_ne_nil (hnonempty d (mem_sortBy.mp hd))
    rintro _ ⟨⟩ _ ⟨⟩
    exact lt_of_le_of_ne hle fun hab => hne (.head _) (hab ▸ .head _)

/-- The search of a closed graph ends with its sorted components. -/
theorem searchComponents_sorted {nodes : List Text} (hnodup : nodes.Nodup)
    (hnodes : ∀ x ∈ nodes, ∀ y, Edge targetsOf x y → y ∈ nodes) :
    ∃ components, searchComponents targetsOf nodes = some components ∧
      SortedComponents (Edge targetsOf) (· ∈ nodes) components := by
  have hinitial : Searching targetsOf nodes initial := ⟨invariant_initial, nofun, fun x hx => by cases hx⟩
  obtain ⟨s, hrun, hs, hframes, -, hvisited⟩ := hinitial.visitRoots rfl hnodup hnodes (fun _ hx => hx)
    (work_initial nodes).le
  refine ⟨_, by rw [searchComponents, hrun]; rfl, ?_⟩
  refine sortedComponents_sortBy hs.invariant.components_nonempty (fun a => ?_) hs.invariant.components_connected
    hs.invariant.components_sorted hs.invariant.components_disjoint
  rw [hs.invariant.components_iff a, hs.invariant.stack_empty hframes]
  exact ⟨fun ha => hs.visited_nodes a ha.1, fun ha => ⟨hvisited a ha, List.not_mem_nil⟩⟩

end ComponentSearch

/-! ## Targets -/

theorem addTarget_mem {targets : List Text} {t u : Text} : u ∈ addTarget targets t ↔ u ∈ targets ∨ u = t := by
  unfold addTarget
  split
  next h => exact ⟨.inl, fun hu => hu.elim id fun hut => hut ▸ h⟩
  next => simp

/-- An edge inside the nodes is added. -/
theorem addEdge_ok {m : TargetsByNodeId} {edge : DirectedGraphEdge} (hfrom : edge.from ∈ m.keys)
    (hto : edge.«to» ∈ m.keys) : ∃ m', addEdge m edge = .ok m' ∧ m'.keys = m.keys ∧
      ∀ v t, t ∈ (m'.get? v).getD [] ↔ t ∈ (m.get? v).getD [] ∨ (⟨v, t⟩ : DirectedGraphEdge) = edge := by
  obtain ⟨targets, htargets⟩ := Option.isSome_iff_exists.mp (OrderedMap.has_iff.mpr hfrom)
  obtain ⟨others, hothers⟩ := Option.isSome_iff_exists.mp (OrderedMap.has_iff.mpr hto)
  refine ⟨m.set edge.from (addTarget targets edge.«to»), by rw [addEdge, htargets, hothers], ?_, fun v t => ?_⟩
  · rw [OrderedMap.keys_set, if_pos hfrom]
  · obtain ⟨a, b⟩ := edge
    rw [OrderedMap.get?_set, DirectedGraphEdge.mk.injEq]
    split
    next hv =>
      cases hv
      simp [htargets, addTarget_mem]
    next hv => simp [Ne.symm hv]

theorem addEdge_error {m : TargetsByNodeId} {edge : DirectedGraphEdge} (h : edge.from ∉ m.keys ∨ edge.«to» ∉ m.keys) :
    addEdge m edge = .error (unknownEndpoint edge) := by
  unfold addEdge
  split
  next targets others hfrom hto =>
    have hfrom' : edge.from ∈ m.keys := OrderedMap.has_iff.mp (by simp [OrderedMap.has, hfrom])
    have hto' : edge.«to» ∈ m.keys := OrderedMap.has_iff.mp (by simp [OrderedMap.has, hto])
    exact absurd h (by simp [hfrom', hto'])
  next => rfl

/-- The loop over the edges collects them, or stops at the first one that leaves the nodes. -/
theorem foldlM_addEdge (edges : List DirectedGraphEdge) (m : TargetsByNodeId) :
    ((∀ edge ∈ edges, edge.from ∈ m.keys ∧ edge.«to» ∈ m.keys) ∧ ∃ m', edges.foldlM addEdge m = .ok m' ∧
      m'.keys = m.keys ∧ ∀ v t, t ∈ (m'.get? v).getD [] ↔ t ∈ (m.get? v).getD [] ∨ (⟨v, t⟩ : DirectedGraphEdge) ∈ edges) ∨
    ∃ edge ∈ edges, (edge.from ∉ m.keys ∨ edge.«to» ∉ m.keys) ∧
      edges.foldlM addEdge m = .error (unknownEndpoint edge) := by
  induction edges generalizing m with
  | nil => exact .inl ⟨nofun, m, rfl, rfl, by simp⟩
  | cons edge edges ih =>
      by_cases h : edge.from ∈ m.keys ∧ edge.«to» ∈ m.keys
      · obtain ⟨m₁, hadd, hkeys, hget⟩ := addEdge_ok h.1 h.2
        have hfold : (edge :: edges).foldlM addEdge m = edges.foldlM addEdge m₁ := by
          rw [List.foldlM_cons, hadd]
          rfl
        rw [hfold]
        rcases ih m₁ with ⟨hall, m', hok, hkeys', hget'⟩ | ⟨bad, hbad, hleaves, herror⟩
        · rw [hkeys] at hall
          refine .inl ⟨List.forall_mem_cons.mpr ⟨h, hall⟩, m', hok, hkeys'.trans hkeys, fun v t => ?_⟩
          rw [hget', hget, List.mem_cons, or_assoc]
        · rw [hkeys] at hleaves
          exact .inr ⟨bad, .tail _ hbad, hleaves, herror⟩
      · have hleaves : edge.from ∉ m.keys ∨ edge.«to» ∉ m.keys := not_and_or.mp h
        refine .inr ⟨edge, .head _, hleaves, ?_⟩
        rw [List.foldlM_cons, addEdge_error hleaves]
        rfl

/-- A graph without edges yet. -/
theorem get?_noTargets {nodes : List Text} (hnodup : nodes.Nodup) (v : Text) :
    (OrderedMap.ofList (nodes.map fun nodeId => (nodeId, ([] : List Text)))).get? v =
      if v ∈ nodes then some [] else none := by
  rw [OrderedMap.get?_ofList (by rw [List.map_map]; simpa [Function.comp_def] using hnodup)]
  induction nodes with
  | nil => rfl
  | cons m nodes ih =>
      rw [List.map_cons, OrderedMap.find, ih (List.nodup_cons.mp hnodup).2]
      by_cases hmv : m = v
      · simp [hmv]
      · simp [hmv, Ne.symm hmv]

/-- Every endpoint of an edge is a declared node. -/
def ClosedGraph (nodeIds : List Text) (edges : List DirectedGraphEdge) : Prop :=
  ∀ edge ∈ edges, edge.from ∈ nodeIds ∧ edge.«to» ∈ nodeIds

/-- A closed graph has a result, its sorted components; an edge that leaves the nodes is reported. -/
theorem compile_cases (nodeIds : List Text) (edges : List DirectedGraphEdge) :
    (ClosedGraph nodeIds edges ∧ ∃ components,
      compileClosedDirectedGraphStrongComponents nodeIds edges = .ok (some components) ∧
        SortedComponents (fun a b => ⟨a, b⟩ ∈ edges) (· ∈ nodeIds) components) ∨
    ∃ edge ∈ edges, (edge.from ∉ nodeIds ∨ edge.«to» ∉ nodeIds) ∧
      compileClosedDirectedGraphStrongComponents nodeIds edges = .error (unknownEndpoint edge) := by
  have hnodup := nodup_uniqueSorted nodeIds
  have hkeys : ∀ v, v ∈ (OrderedMap.ofList ((uniqueSorted nodeIds).map fun nodeId => (nodeId, ([] : List Text)))).keys ↔
      v ∈ nodeIds := fun v => by
    rw [← OrderedMap.has_iff, OrderedMap.has, get?_noTargets hnodup]
    by_cases hv : v ∈ nodeIds
    · simp [hv]
    · simp [hv]
  unfold compileClosedDirectedGraphStrongComponents compileTargets
  dsimp only
  rcases foldlM_addEdge edges
    (OrderedMap.ofList ((uniqueSorted nodeIds).map fun nodeId => (nodeId, []))) with
    ⟨hall, m, hok, -, hget⟩ | ⟨bad, hbad, hleaves, herror⟩
  · simp only [hkeys] at hall
    have hedge : ∀ v t, ComponentSearch.Edge (fun nodeId => (m.get? nodeId).getD []) v t ↔
        (⟨v, t⟩ : DirectedGraphEdge) ∈ edges := fun v t => by
      rw [ComponentSearch.Edge, hget, get?_noTargets hnodup]
      split <;> simp
    obtain ⟨components, hsearch, hsorted⟩ := ComponentSearch.searchComponents_sorted hnodup fun x _ y hxy =>
      mem_uniqueSorted.mpr (hall _ ((hedge x y).mp hxy)).2
    refine .inl ⟨hall, components, ?_, (SortedComponents.congr hedge fun a => mem_uniqueSorted).mp hsorted⟩
    rw [hok]
    exact congrArg Except.ok hsearch
  · simp only [hkeys] at hleaves
    refine .inr ⟨bad, hbad, hleaves, ?_⟩
    rw [herror]
    rfl

end SecPlatform.Contracts
