import Mathlib.Data.List.Perm.Subperm
import Mathlib.Logic.Relation
import Mathlib.Data.List.Nodup
import Mathlib.Data.List.Sort
import SecPlatform.Library.Except
import SecPlatform.Library.OrderedMap

/-!
# Searches through dependencies

Two depth-first recursions over a dependency relation. The first marks nodes as being visited and as done and fails at
a node that is being visited: it succeeds exactly on acyclic relations. The second computes whether a node and all that
it depends on satisfy a condition, and keeps the answers. A bound on the nesting stands for the call stack.
-/

namespace SecPlatform.DependencySearch

variable {α : Type}

inductive Failure (α : Type) where
  /-- A node that is being visited was reached again. -/
  | cycle (path : List α)
  /-- The calls are nested more deeply than the bound. -/
  | nesting

/-- A node and one that it depends on. -/
def Depends (dependencies : α → List α) (a b : α) : Prop := b ∈ dependencies a

/-- No node of the list depends on itself through others. -/
def Acyclic (dependencies : α → List α) (nodes : List α) : Prop :=
  ∀ a ∈ nodes, ¬Relation.TransGen (Depends dependencies) a a

/-- The list contains what its nodes depend on. -/
def Closed (dependencies : α → List α) (nodes : List α) : Prop := ∀ a ∈ nodes, ∀ b ∈ dependencies a, b ∈ nodes

section

variable [DecidableEq α] (dependencies : α → List α)

/-! ## Cycles -/

inductive Mark where
  | visiting | done
  deriving DecidableEq

/-- The marks of the nodes, and the nodes that are being visited in the order of the calls. -/
structure Walk (α : Type) where
  state : OrderedMap α Mark
  stack : List α

def Walk.start : Walk α := ⟨.empty, []⟩

def Walk.enter (walk : Walk α) (a : α) : Walk α := ⟨walk.state.set a .visiting, walk.stack ++ [a]⟩

def Walk.leave (walk : Walk α) (a : α) : Walk α := ⟨walk.state.set a .done, walk.stack.dropLast⟩

/-- One call for a node. -/
def visit : Nat → α → Walk α → Except (Failure α) (Walk α)
  | 0, _, _ => .error .nesting
  | fuel + 1, a, walk =>
      match walk.state.get? a with
      | some .done => .ok walk
      | some .visiting => .error (.cycle (walk.stack.drop (walk.stack.idxOf a) ++ [a]))
      | none => ((dependencies a).foldlM (fun walk b => visit fuel b walk) (walk.enter a)).map (·.leave a)

/-- The calls for all nodes. -/
def visitAll (fuel : Nat) (nodes : List α) : Except (Failure α) (Walk α) :=
  nodes.foldlM (fun walk a => visit dependencies fuel a walk) .start

variable {dependencies}

/-- Between two calls: the stack holds the nodes being visited, and below a node that is done the relation ends. -/
structure IsWalk (dependencies : α → List α) (walk : Walk α) : Prop where
  visiting : ∀ a, walk.state.get? a = some .visiting ↔ a ∈ walk.stack
  done : ∀ a, walk.state.get? a = some .done → Acc (fun b a => Depends dependencies a b) a
  nodup : walk.stack.Nodup

/-- What a call does to the walk: the stack is as before, and nodes that are done stay so. -/
structure Continues (walk walk' : Walk α) : Prop where
  stack_eq : walk'.stack = walk.stack
  done : ∀ a, walk.state.get? a = some .done → walk'.state.get? a = some .done

theorem Continues.refl (walk : Walk α) : Continues walk walk := ⟨rfl, fun _ h => h⟩

theorem Continues.trans {walk walk' walk'' : Walk α} (h : Continues walk walk') (h' : Continues walk' walk'') :
    Continues walk walk'' := ⟨h'.stack_eq.trans h.stack_eq, fun a ha => h'.done a (h.done a ha)⟩

theorem IsWalk.start : IsWalk dependencies (.start : Walk α) where
  visiting a := by simp [Walk.start]
  done a h := by simp [Walk.start] at h
  nodup := List.nodup_nil

theorem IsWalk.enter {walk : Walk α} {a : α} (h : IsWalk dependencies walk) (hnew : walk.state.get? a = none) :
    IsWalk dependencies (walk.enter a) where
  visiting b := by
    rw [Walk.enter, OrderedMap.get?_set, List.mem_append, List.mem_singleton]
    by_cases hb : a = b
    · simp [hb]
    · simp [hb, Ne.symm hb, h.visiting]
  done b hb := by
    rw [Walk.enter, OrderedMap.get?_set] at hb
    split at hb
    · cases hb
    · exact h.done b hb
  nodup := by
    refine List.nodup_append.mpr ⟨h.nodup, List.nodup_singleton a, fun b hb c hc => ?_⟩
    obtain rfl := List.mem_singleton.mp hc
    rintro rfl
    rw [(h.visiting b).mpr hb] at hnew
    cases hnew

theorem IsWalk.leave {walk : Walk α} {a : α} {stack : List α} (h : IsWalk dependencies walk)
    (hstack : walk.stack = stack ++ [a]) (hdone : ∀ b ∈ dependencies a, walk.state.get? b = some .done) :
    IsWalk dependencies (walk.leave a) where
  visiting b := by
    have hnodup := h.nodup
    have hb := h.visiting b
    rw [hstack] at hnodup hb
    rw [Walk.leave, OrderedMap.get?_set, hstack, List.dropLast_concat]
    by_cases hab : a = b
    · subst hab
      have hnot : a ∉ stack := fun hmem => (List.nodup_append.mp hnodup).2.2 a hmem a List.mem_cons_self rfl
      simp [hnot]
    · rw [if_neg hab, hb]
      simp [Ne.symm hab]
  done b hb := by
    rw [Walk.leave, OrderedMap.get?_set] at hb
    split at hb
    · rename_i hab
      subst hab
      exact Acc.intro a fun c hc => h.done c (hdone c hc)
    · exact h.done b hb
  nodup := h.nodup.sublist (List.dropLast_sublist _)

/-- A call that succeeds leaves its node done. -/
theorem visit_ok {fuel : Nat} {a : α} {walk walk' : Walk α} (hwalk : IsWalk dependencies walk)
    (h : visit dependencies fuel a walk = .ok walk') :
    IsWalk dependencies walk' ∧ Continues walk walk' ∧ walk'.state.get? a = some .done := by
  induction fuel generalizing a walk walk' with
  | zero => cases h
  | succ fuel ih =>
      unfold visit at h
      split at h
      · rename_i hdone
        cases h
        exact ⟨hwalk, .refl _, hdone⟩
      · cases h
      · rename_i hnew
        obtain ⟨inner, hloop, rfl⟩ := map_eq_ok.mp h
        have hinner : IsWalk dependencies inner ∧ Continues (walk.enter a) inner ∧
            ∀ b ∈ dependencies a, inner.state.get? b = some .done := by
          refine foldlM_rule (P := fun bs inner => IsWalk dependencies inner ∧ Continues (walk.enter a) inner ∧
            ∀ b ∈ bs, inner.state.get? b = some .done) ?_ ⟨hwalk.enter hnew, .refl _, by simp⟩ hloop
          rintro bs inner b next ⟨hinner, hcontinues, hdone⟩ hcall
          obtain ⟨hnext, hstep, hb⟩ := ih hinner hcall
          refine ⟨hnext, hcontinues.trans hstep, fun c hc => ?_⟩
          rcases List.mem_append.mp hc with hc | hc
          · exact hstep.done c (hdone c hc)
          · rwa [List.mem_singleton.mp hc]
        obtain ⟨hinner, hcontinues, hdone⟩ := hinner
        refine ⟨hinner.leave hcontinues.stack_eq hdone, ⟨?_, fun b hb => ?_⟩, OrderedMap.get?_set_self _ _ _⟩
        · simp [Walk.leave, hcontinues.stack_eq, Walk.enter]
        · rw [Walk.leave, OrderedMap.get?_set]
          split
          · rfl
          · rename_i hab
            exact hcontinues.done b (by rwa [Walk.enter, OrderedMap.get?_set_of_ne _ _ hab])

/-- A call fails only at a cycle, when the bound on the nesting covers the nodes that are left. -/
theorem visit_error {nodes : List α} (hclosed : Closed dependencies nodes) {fuel : Nat} {a : α} {walk : Walk α}
    {failure : Failure α} (hwalk : IsWalk dependencies walk) (ha : a ∈ nodes) (hstack : ∀ b ∈ walk.stack, b ∈ nodes)
    (hreach : ∀ b ∈ walk.stack, Relation.TransGen (Depends dependencies) b a)
    (hfuel : nodes.length < fuel + walk.stack.length) (h : visit dependencies fuel a walk = .error failure) :
    (∃ path, failure = .cycle path) ∧ ∃ b ∈ nodes, Relation.TransGen (Depends dependencies) b b := by
  induction fuel generalizing a walk with
  | zero =>
      have hle : walk.stack.length ≤ nodes.length := (List.subperm_of_subset hwalk.nodup hstack).length_le
      omega
  | succ fuel ih =>
      unfold visit at h
      split at h
      · cases h
      · rename_i hvisiting
        cases h
        exact ⟨⟨_, rfl⟩, a, ha, hreach a ((hwalk.visiting a).mp hvisiting)⟩
      · rename_i hnew
        obtain ⟨bs, b, cs, inner, hdependencies, hloop, hcall⟩ := exists_of_foldlM_error (map_eq_error.mp h)
        have hb : b ∈ dependencies a := by simp [hdependencies]
        have hinner : IsWalk dependencies inner ∧ Continues (walk.enter a) inner := by
          refine foldlM_invariant (P := fun inner => IsWalk dependencies inner ∧ Continues (walk.enter a) inner) ?_
            ⟨hwalk.enter hnew, .refl _⟩ hloop
          rintro inner c next ⟨hinner, hcontinues⟩ hcall
          obtain ⟨hnext, hstep, -⟩ := visit_ok hinner hcall
          exact ⟨hnext, hcontinues.trans hstep⟩
        obtain ⟨hinner, hcontinues⟩ := hinner
        have hmem : ∀ c, c ∈ inner.stack ↔ c ∈ walk.stack ∨ c = a := by
          intro c
          rw [hcontinues.stack_eq]
          simp [Walk.enter]
        refine ih hinner (hclosed a ha b hb) (fun c hc => ?_) (fun c hc => ?_) ?_ hcall
        · rcases (hmem c).mp hc with hc | rfl
          · exact hstack c hc
          · exact ha
        · rcases (hmem c).mp hc with hc | rfl
          · exact (hreach c hc).tail hb
          · exact .single hb
        · rw [hcontinues.stack_eq]
          simp only [Walk.enter, List.length_append, List.length_singleton]
          omega

theorem visitAll_ok {fuel : Nat} {nodes : List α} {walk : Walk α} (h : visitAll dependencies fuel nodes = .ok walk) :
    ∀ a ∈ nodes, Acc (fun b a => Depends dependencies a b) a := by
  have hwalk := foldlM_rule (P := fun bs walk => IsWalk dependencies walk ∧ ∀ b ∈ bs, walk.state.get? b = some .done)
    (fun bs walk a next hwalk hcall => by
      obtain ⟨hnext, hstep, ha⟩ := visit_ok hwalk.1 hcall
      refine ⟨hnext, fun b hb => ?_⟩
      rcases List.mem_append.mp hb with hb | hb
      · exact hstep.done b (hwalk.2 b hb)
      · rwa [List.mem_singleton.mp hb]) ⟨.start, by simp⟩ h
  exact fun a ha => hwalk.1.done a (hwalk.2 a ha)

omit [DecidableEq α] in
theorem acyclic_of_acc {nodes : List α} (h : ∀ a ∈ nodes, Acc (fun b a => Depends dependencies a b) a) :
    Acyclic dependencies nodes := by
  intro a ha hcycle
  have hacc := (h a ha).transGen
  have hswap : Relation.TransGen (fun b a => Depends dependencies a b) a a := Relation.transGen_swap.mpr hcycle
  clear hcycle ha
  induction hacc with
  | intro a _ ih => exact ih a hswap hswap

/-- The calls for the nodes of a closed list fail only at a cycle. -/
theorem visitAll_error {fuel : Nat} {nodes : List α} (hclosed : Closed dependencies nodes) (hfuel : nodes.length < fuel)
    {failure : Failure α} (h : visitAll dependencies fuel nodes = .error failure) :
    (∃ path, failure = .cycle path) ∧ ¬Acyclic dependencies nodes := by
  obtain ⟨bs, a, cs, walk, hnodes, hloop, hcall⟩ := exists_of_foldlM_error h
  have hwalk : IsWalk dependencies walk ∧ Continues .start walk := by
    refine foldlM_invariant (P := fun walk => IsWalk dependencies walk ∧ Continues .start walk) ?_ ⟨.start, .refl _⟩ hloop
    rintro walk b next ⟨hwalk, hcontinues⟩ hcall
    obtain ⟨hnext, hstep, -⟩ := visit_ok hwalk hcall
    exact ⟨hnext, hcontinues.trans hstep⟩
  obtain ⟨hwalk, hcontinues⟩ := hwalk
  have hempty : walk.stack = [] := hcontinues.stack_eq
  have ha : a ∈ nodes := by simp [hnodes]
  obtain ⟨hpath, b, hb, hcycle⟩ := visit_error hclosed hwalk ha (by simp [hempty]) (by simp [hempty])
    (Nat.lt_of_lt_of_le hfuel (Nat.le_add_right _ _)) hcall
  exact ⟨hpath, fun hacyclic => hacyclic b hb hcycle⟩

/-- They succeed exactly when no node depends on itself. -/
theorem visitAll_succeeds_iff {fuel : Nat} {nodes : List α} (hclosed : Closed dependencies nodes)
    (hfuel : nodes.length < fuel) : Succeeds (visitAll dependencies fuel nodes) ↔ Acyclic dependencies nodes := by
  constructor
  · rintro ⟨walk, h⟩
    exact acyclic_of_acc (visitAll_ok h)
  · intro hacyclic
    cases h : visitAll dependencies fuel nodes with
    | ok walk => exact ⟨walk, rfl⟩
    | error failure => exact absurd hacyclic (visitAll_error hclosed hfuel h).2

/-! ## Conditions on all dependencies -/

/-- `values.every(f)` with answers that are kept along the way. -/
def every (f : α → OrderedMap α Bool → Except (Failure α) (Bool × OrderedMap α Bool)) :
    List α → OrderedMap α Bool → Except (Failure α) (Bool × OrderedMap α Bool)
  | [], memo => .ok (true, memo)
  | a :: as, memo => do
      let answer ← f a memo
      if answer.1 then every f as answer.2 else .ok (false, answer.2)

/-- The answer for the dependencies of a node that satisfies the condition itself. -/
def everyIf (condition : Bool) (f : α → OrderedMap α Bool → Except (Failure α) (Bool × OrderedMap α Bool))
    (as : List α) (memo : OrderedMap α Bool) : Except (Failure α) (Bool × OrderedMap α Bool) :=
  if condition then every f as memo else .ok (false, memo)

/-- One call for a node: a kept answer, or the answer for the node and its dependencies. -/
def satisfied (dependencies : α → List α) (condition : α → Bool) :
    Nat → α → OrderedMap α Bool → Except (Failure α) (Bool × OrderedMap α Bool)
  | 0, _, _ => .error .nesting
  | fuel + 1, a, memo =>
      match memo.get? a with
      | some answer => .ok (answer, memo)
      | none => (everyIf (condition a) (fun b memo => satisfied dependencies condition fuel b memo) (dependencies a) memo).map
          fun answer => (answer.1, answer.2.set a answer.1)

omit [DecidableEq α] in
/-- The node and all that it depends on satisfy the condition. -/
def HoldsBelow (dependencies : α → List α) (condition : α → Bool) (a : α) : Prop :=
  ∀ b, Relation.ReflTransGen (Depends dependencies) a b → condition b = true

/-- The answers that are kept are right. -/
def IsMemo (dependencies : α → List α) (condition : α → Bool) (memo : OrderedMap α Bool) : Prop :=
  ∀ a answer, memo.get? a = some answer → (answer = true ↔ HoldsBelow dependencies condition a)

variable {condition : α → Bool}

omit [DecidableEq α] in
theorem holdsBelow_iff {a : α} : HoldsBelow dependencies condition a ↔
    condition a = true ∧ ∀ b ∈ dependencies a, HoldsBelow dependencies condition b := by
  constructor
  · exact fun h => ⟨h a .refl, fun b hb c hc => h c (.head hb hc)⟩
  · rintro ⟨ha, hbelow⟩ c hc
    rcases hc.cases_head with rfl | ⟨b, hb, hc⟩
    · exact ha
    · exact hbelow b hb c hc

theorem isMemo_empty : IsMemo dependencies condition (.empty : OrderedMap α Bool) := by
  intro a answer h
  simp at h

theorem every_ok {P : α → Prop} {f : α → OrderedMap α Bool → Except (Failure α) (Bool × OrderedMap α Bool)}
    (hf : ∀ a memo answer, IsMemo dependencies condition memo → f a memo = .ok answer →
      (answer.1 = true ↔ P a) ∧ IsMemo dependencies condition answer.2) {as : List α} {memo : OrderedMap α Bool}
    {answer : Bool × OrderedMap α Bool} (hmemo : IsMemo dependencies condition memo) (h : every f as memo = .ok answer) :
    (answer.1 = true ↔ ∀ a ∈ as, P a) ∧ IsMemo dependencies condition answer.2 := by
  induction as generalizing memo with
  | nil =>
      cases h
      exact ⟨by simp, hmemo⟩
  | cons a as ih =>
      obtain ⟨first, hfirst, h⟩ := bind_eq_ok.mp h
      obtain ⟨hanswer, hkept⟩ := hf a memo first hmemo hfirst
      rw [List.forall_mem_cons]
      split at h
      · rename_i htrue
        obtain ⟨hrest, hkept⟩ := ih hkept h
        exact ⟨hrest.trans (iff_and_self.mpr fun _ => hanswer.mp htrue), hkept⟩
      · rename_i hfalse
        cases h
        exact ⟨⟨nofun, fun hall => absurd (hanswer.mpr hall.1) hfalse⟩, hkept⟩

/-- Whatever answers are kept, an answer says whether the node and all its dependencies satisfy the condition. -/
theorem satisfied_ok {fuel : Nat} {a : α} {memo : OrderedMap α Bool} {answer : Bool × OrderedMap α Bool}
    (hmemo : IsMemo dependencies condition memo) (h : satisfied dependencies condition fuel a memo = .ok answer) :
    (answer.1 = true ↔ HoldsBelow dependencies condition a) ∧ IsMemo dependencies condition answer.2 := by
  induction fuel generalizing a memo answer with
  | zero => cases h
  | succ fuel ih =>
      unfold satisfied at h
      split at h
      · rename_i kept hkept
        cases h
        exact ⟨hmemo a kept hkept, hmemo⟩
      · obtain ⟨below, hbelow, rfl⟩ := map_eq_ok.mp h
        have hcorrect : (below.1 = true ↔ HoldsBelow dependencies condition a) ∧
            IsMemo dependencies condition below.2 := by
          unfold everyIf at hbelow
          split at hbelow
          · rename_i hcondition
            obtain ⟨hanswer, hkept⟩ := every_ok (fun b memo answer hmemo hcall => ih hmemo hcall) hmemo hbelow
            rw [hanswer, holdsBelow_iff]
            exact ⟨⟨fun hall => ⟨hcondition, hall⟩, And.right⟩, hkept⟩
          · rename_i hcondition
            cases hbelow
            exact ⟨⟨nofun, fun hbelow => absurd (hbelow a .refl) hcondition⟩, hmemo⟩
        refine ⟨hcorrect.1, fun b kept hb => ?_⟩
        rw [OrderedMap.get?_set] at hb
        split at hb
        · rename_i hab
          cases hb
          exact hab ▸ hcorrect.1
        · exact hcorrect.2 b kept hb

omit [DecidableEq α] in
theorem every_error {f : α → OrderedMap α Bool → Except (Failure α) (Bool × OrderedMap α Bool)} {as : List α}
    {memo : OrderedMap α Bool} {failure : Failure α} (h : every f as memo = .error failure) :
    ∃ a ∈ as, ∃ memo', f a memo' = .error failure := by
  induction as generalizing memo with
  | nil => cases h
  | cons a as ih =>
      unfold every at h
      cases hfirst : f a memo with
      | error first =>
          rw [hfirst] at h
          exact ⟨a, List.mem_cons_self, memo, hfirst.trans h⟩
      | ok first =>
          rw [hfirst, ok_bind] at h
          split at h
          · obtain ⟨b, hb, memo', hcall⟩ := ih h
            exact ⟨b, List.mem_cons_of_mem _ hb, memo', hcall⟩
          · cases h

/-- On an acyclic closed list a call never exceeds a bound that covers the nodes off its path. -/
theorem satisfied_succeeds {nodes : List α} (hclosed : Closed dependencies nodes)
    (hacyclic : Acyclic dependencies nodes) (path : List α) {fuel : Nat} {a : α} (memo : OrderedMap α Bool) (ha : a ∈ nodes)
    (hnodup : path.Nodup) (hpath : ∀ b ∈ path, b ∈ nodes)
    (hreach : ∀ b ∈ path, Relation.TransGen (Depends dependencies) b a) (hfuel : nodes.length < fuel + path.length) :
    Succeeds (satisfied dependencies condition fuel a memo) := by
  induction fuel generalizing a memo path with
  | zero =>
      have hle : path.length ≤ nodes.length := (List.subperm_of_subset hnodup hpath).length_le
      omega
  | succ fuel ih =>
      unfold satisfied
      split
      · exact ⟨_, rfl⟩
      · cases hbelow : everyIf (condition a) (fun b memo => satisfied dependencies condition fuel b memo) (dependencies a) memo with
        | ok below => exact ⟨_, rfl⟩
        | error failure =>
            unfold everyIf at hbelow
            split at hbelow
            · obtain ⟨b, hb, memo', hcall⟩ := every_error hbelow
              have hnew : a ∉ path := fun hmem => hacyclic a ha (hreach a hmem)
              have hmem : ∀ c ∈ path ++ [a], c ∈ path ∨ c = a := by simp
              have hsucceeds : Succeeds (satisfied dependencies condition fuel b memo') := by
                refine ih (path ++ [a]) memo' (hclosed a ha b hb) ?_ (fun c hc => ?_) (fun c hc => ?_) ?_
                · exact List.nodup_append.mpr ⟨hnodup, List.nodup_singleton a, fun c hc d hd hcd =>
                    hnew (List.mem_singleton.mp hd ▸ hcd ▸ hc)⟩
                · exact (hmem c hc).elim (hpath c) fun h => h ▸ ha
                · exact (hmem c hc).elim (fun h => (hreach c h).tail hb) fun h => h ▸ .single hb
                · simp only [List.length_append, List.length_singleton]
                  omega
              obtain ⟨answer, hanswer⟩ := hsucceeds
              rw [hcall] at hanswer
              cases hanswer
            · cases hbelow

/-- `values.filter(f)` with answers that are kept along the way. -/
def filterSatisfied (f : α → OrderedMap α Bool → Except (Failure α) (Bool × OrderedMap α Bool)) :
    List α → OrderedMap α Bool → Except (Failure α) (List α × OrderedMap α Bool)
  | [], memo => .ok ([], memo)
  | a :: as, memo => do
      let answer ← f a memo
      let rest ← filterSatisfied f as answer.2
      .ok (if answer.1 then a :: rest.1 else rest.1, rest.2)

theorem filterSatisfied_ok {fuel : Nat} [DecidablePred (HoldsBelow dependencies condition)] {as : List α}
    {memo : OrderedMap α Bool} {kept : List α × OrderedMap α Bool} (hmemo : IsMemo dependencies condition memo)
    (h : filterSatisfied (satisfied dependencies condition fuel) as memo = .ok kept) :
    kept.1 = as.filter (fun a => HoldsBelow dependencies condition a) ∧ IsMemo dependencies condition kept.2 := by
  induction as generalizing memo kept with
  | nil =>
      cases h
      exact ⟨rfl, hmemo⟩
  | cons a as ih =>
      obtain ⟨answer, hanswer, h⟩ := bind_eq_ok.mp h
      obtain ⟨rest, hrest, h⟩ := bind_eq_ok.mp h
      cases h
      obtain ⟨hcorrect, hmemo⟩ := satisfied_ok hmemo hanswer
      obtain ⟨hrest, hmemo⟩ := ih hmemo hrest
      refine ⟨?_, hmemo⟩
      by_cases hbelow : HoldsBelow dependencies condition a
      · simp [hbelow, hcorrect.mpr hbelow, hrest]
      · simp [hbelow, mt hcorrect.mp hbelow, hrest]

theorem filterSatisfied_succeeds {nodes : List α} (hclosed : Closed dependencies nodes)
    (hacyclic : Acyclic dependencies nodes) {fuel : Nat} (hfuel : nodes.length < fuel) {as : List α}
    (has : ∀ a ∈ as, a ∈ nodes) (memo : OrderedMap α Bool) :
    Succeeds (filterSatisfied (satisfied dependencies condition fuel) as memo) := by
  induction as generalizing memo with
  | nil => exact ⟨_, rfl⟩
  | cons a as ih =>
      have hfirst : Succeeds (satisfied dependencies condition fuel a memo) :=
        satisfied_succeeds hclosed hacyclic [] memo (has a List.mem_cons_self) List.nodup_nil (by simp) (by simp) hfuel
      obtain ⟨answer, hanswer⟩ := hfirst
      obtain ⟨rest, hrest⟩ := ih (fun b hb => has b (List.mem_cons_of_mem _ hb)) answer.2
      exact ⟨_, by rw [filterSatisfied, hanswer, ok_bind, hrest, ok_bind]⟩

end

end SecPlatform.DependencySearch

/-!
## Strongly connected components

Two points are connected when each reaches the other. The sorted list of the sorted components of a finite set of
points is determined by the relation.
-/

namespace SecPlatform

open Relation

variable {α : Type} {r : α → α → Prop} {a b c : α}

/-- Each point reaches the other. -/
def Connected (r : α → α → Prop) (a b : α) : Prop := ReflTransGen r a b ∧ ReflTransGen r b a

namespace Connected

theorem refl (a : α) : Connected r a a := ⟨.refl, .refl⟩

theorem symm (h : Connected r a b) : Connected r b a := ⟨h.2, h.1⟩

theorem trans (h : Connected r a b) (h' : Connected r b c) : Connected r a c := ⟨h.1.trans h'.1, h'.2.trans h.2⟩

theorem congr {s : α → α → Prop} (h : ∀ a b, r a b ↔ s a b) : Connected r a b ↔ Connected s a b := by
  have hrs : r = s := funext fun a => funext fun b => propext (h a b)
  rw [hrs]

end Connected

/-- What is reached from a closed set stays in it. -/
theorem reach_of_closed {p : α → Prop} (hp : ∀ a, p a → ∀ b, r a b → p b) (ha : p a) (h : ReflTransGen r a b) : p b := by
  induction h with
  | refl => exact ha
  | tail _ hstep ih => exact hp _ ih _ hstep

/-- A set that one point reaches and that leads back to it, with no way out but to points that do not lead back, is a
component. -/
theorem component_iff {p q : α → Prop} (hback : ∀ b, p b → Connected r a b) (ha : p a)
    (hclosed : ∀ b, p b → ∀ c, r b c → p c ∨ q c) (hq : ∀ b, q b → ∀ c, r b c → q c) (hqa : ¬ q a) :
    p b ↔ Connected r a b := by
  refine ⟨hback b, fun ⟨hto, hfrom⟩ => ?_⟩
  have hclosed' : ∀ b, p b ∨ q b → ∀ c, r b c → p c ∨ q c := fun b hb c hstep =>
    hb.elim (fun hb => hclosed b hb c hstep) fun hb => .inr (hq b hb c hstep)
  refine (reach_of_closed hclosed' (.inl ha) hto).resolve_right fun hb => hqa ?_
  exact reach_of_closed hq hb hfrom

/-! ### Sorted lists of components -/

variable [LinearOrder α]

/-- The components of the points of a set, each sorted, in the order of their least points. -/
structure SortedComponents (r : α → α → Prop) (p : α → Prop) (components : List (List α)) : Prop where
  nonempty : ∀ c ∈ components, c ≠ []
  covers : ∀ a, (∃ c ∈ components, a ∈ c) ↔ p a
  connected : ∀ c ∈ components, ∀ a ∈ c, ∀ b, b ∈ c ↔ Connected r a b
  sorted : ∀ c ∈ components, c.Pairwise (· < ·)
  ordered : components.Pairwise fun c d => ∀ a ∈ c.head?, ∀ b ∈ d.head?, a < b

namespace SortedComponents

variable {p : α → Prop} {components others : List (List α)}

theorem mem_of_mem (h : SortedComponents r p components) (h' : SortedComponents r p others) {c : List α}
    (hc : c ∈ components) : c ∈ others := by
  obtain ⟨a, ha⟩ := List.exists_mem_of_ne_nil c (h.nonempty c hc)
  obtain ⟨d, hd, had⟩ := (h'.covers a).mpr ((h.covers a).mp ⟨c, hc, ha⟩)
  have hsame : ∀ b, b ∈ c ↔ b ∈ d := fun b => (h.connected c hc a ha b).trans (h'.connected d hd a had b).symm
  have hperm : c.Perm d := (List.perm_ext_iff_of_nodup (h.sorted c hc).nodup (h'.sorted d hd).nodup).mpr hsame
  rwa [hperm.eq_of_pairwise (fun _ _ _ _ hab hba => absurd hab (lt_asymm hba)) (h.sorted c hc) (h'.sorted d hd)]

theorem asymm (h : SortedComponents r p components) {c d : List α} (hc : c ∈ components) (hd : d ∈ components)
    (hcd : ∀ a ∈ c.head?, ∀ b ∈ d.head?, a < b) : ¬ ∀ a ∈ d.head?, ∀ b ∈ c.head?, a < b := by
  obtain ⟨a, c, rfl⟩ := List.exists_cons_of_ne_nil (h.nonempty c hc)
  obtain ⟨b, d, rfl⟩ := List.exists_cons_of_ne_nil (h.nonempty d hd)
  exact fun hdc => lt_asymm (hcd a rfl b rfl) (hdc b rfl a rfl)

theorem nodup (h : SortedComponents r p components) : components.Nodup := by
  refine h.ordered.imp_of_mem fun {c d} hc hd hcd heq => ?_
  subst heq
  exact h.asymm hc hd hcd hcd

/-- There is only one such list. -/
theorem unique (h : SortedComponents r p components) (h' : SortedComponents r p others) : components = others := by
  have hsame : ∀ c, c ∈ components ↔ c ∈ others := fun c => ⟨h.mem_of_mem h', h'.mem_of_mem h⟩
  have hperm := (List.perm_ext_iff_of_nodup h.nodup h'.nodup).mpr hsame
  exact hperm.eq_of_pairwise (fun c d hc hd hcd hdc => absurd hdc (h.asymm hc ((hsame d).mpr hd) hcd)) h.ordered h'.ordered

/-- Only the set and the relation matter. -/
theorem congr {s : α → α → Prop} {q : α → Prop} (hr : ∀ a b, r a b ↔ s a b) (hp : ∀ a, p a ↔ q a) :
    SortedComponents r p components ↔ SortedComponents s q components := by
  have hrs : r = s := funext fun a => funext fun b => propext (hr a b)
  have hpq : p = q := funext fun a => propext (hp a)
  rw [hrs, hpq]

end SortedComponents

end SecPlatform
