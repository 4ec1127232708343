import Mathlib.Data.Fintype.EquivFin
import Mathlib.Data.List.Forall2
import Mathlib.Logic.Relation
import Mathlib.SetTheory.Cardinal.Finite
import SecPlatform.Contracts.Lemmas.Canonical
import SecPlatform.Contracts.ObjectGraph
import SecPlatform.Library.Except
import SecPlatform.Library.Related

/-!
# Normalization of object graphs

An admitted graph without a cycle unfolds to a tree, and the traversal yields the canonical value of
that tree. With a cycle it ends with the circular failure. The proof goes through a recursive form of
`normalize` whose depth is bounded by the number of objects, because the ancestors are distinct.
-/

namespace SecPlatform.Contracts.ObjectGraph

open Relation (ReflTransGen TransGen)

variable {ρ : Type}

/-! ## Reachability and cycles -/

/-- A container and the value of one of its slots. -/
inductive Holds (heap : Heap ρ) : JsValue ρ → JsValue ρ → Prop
  | element {r elements value} (hr : heap r = .array elements) (hmem : some (.data value) ∈ elements) :
      Holds heap (.ref r) value
  | property {r properties key value} (hr : heap r = .record properties) (hmem : (key, .data value) ∈ properties.slots) :
      Holds heap (.ref r) value

def Reaches (heap : Heap ρ) : JsValue ρ → JsValue ρ → Prop := ReflTransGen (Holds heap)

/-- An object that contains itself can be reached. -/
def Cyclic (heap : Heap ρ) (value : JsValue ρ) : Prop :=
  ∃ r, Reaches heap value (.ref r) ∧ TransGen (Holds heap) (.ref r) (.ref r)

/-- A value that is plain data as far as its own slots go. -/
def PlainData (heap : Heap ρ) : JsValue ρ → Prop
  | .null | .bool _ | .str _ => True
  | .num n => n.isFinite
  | .undefined | .exotic => False
  | .ref r =>
      match heap r with
      | .array elements => some .accessor ∉ elements
      | .record properties => ∀ slot ∈ properties.slots, slot.2 ≠ .accessor
      | .proxy | .otherPrototype => False

/-- Everything reachable is plain data; sharing and cycles are not excluded. -/
def Admitted (heap : Heap ρ) (value : JsValue ρ) : Prop := ∀ w, Reaches heap value w → PlainData heap w

theorem Admitted.plain {heap : Heap ρ} {v : JsValue ρ} (h : Admitted heap v) : PlainData heap v := h v .refl

theorem Admitted.child {heap : Heap ρ} {v w : JsValue ρ} (h : Admitted heap v) (hvw : Holds heap v w) :
    Admitted heap w := fun x hx => h x (.head hvw hx)

/-- Plain data that holds only itself is admitted. -/
theorem admitted_of_closed {heap : Heap ρ} (P : JsValue ρ → Prop) (hclosed : ∀ v w, P v → Holds heap v w → P w)
    (hplain : ∀ v, P v → PlainData heap v) {v : JsValue ρ} (hv : P v) : Admitted heap v := by
  intro w hw
  refine hplain w ?_
  induction hw with
  | refl => exact hv
  | tail _ hstep ih => exact hclosed _ _ ih hstep

theorem Cyclic.of_child {heap : Heap ρ} {v w : JsValue ρ} (h : Cyclic heap w) (hvw : Holds heap v w) : Cyclic heap v := by
  obtain ⟨r, hr, hcycle⟩ := h
  exact ⟨r, .head hvw hr, hcycle⟩

theorem not_transGen_self {α : Type} {r : α → α → Prop} {a : α} (h : Acc r a) : ¬ TransGen r a a := by
  replace h := h.transGen
  induction h with
  | intro a _ ih => exact fun ha => ih a ha ha

/-- A value below which every chain of containers ends is on no cycle and reaches none. -/
theorem not_cyclic_of_acc {heap : Heap ρ} {v : JsValue ρ} (h : Acc (fun w v => Holds heap v w) v) : ¬ Cyclic heap v := by
  rintro ⟨r, hr, hcycle⟩
  have hacc : ∀ w, Reaches heap v w → Acc (fun w v => Holds heap v w) w := by
    intro w hw
    induction hw with
    | refl => exact h
    | tail _ hstep ih => exact ih.inv hstep
  exact not_transGen_self (hacc _ hr) (Relation.transGen_swap.mp hcycle)

/-! ## Unfolding -/

/-- The tree of a value without cycles, in source order and with every number as it stands, within a depth. -/
def UnfoldsAt (heap : Heap ρ) : Nat → JsValue ρ → Value → Prop
  | 0, _, _ => False
  | depth + 1, value, tree =>
      match value with
      | .null => tree = .null
      | .bool b => tree = .bool b
      | .num n => tree = .num n
      | .str s => tree = .str s
      | .undefined | .exotic => False
      | .ref r =>
          match heap r with
          | .array elements => ∃ items, tree = .arr items ∧ elements.Forall₂
              (fun slot item => (slot = none ∧ item = .null) ∨ ∃ v, slot = some (.data v) ∧ UnfoldsAt heap depth v item) items
          | .record properties => ∃ members, tree = .obj members ∧ properties.slots.Forall₂
              (fun slot member => slot.1 = member.1 ∧ ∃ v, slot.2 = .data v ∧ UnfoldsAt heap depth v member.2) members
          | .proxy | .otherPrototype => False

def Unfolds (heap : Heap ρ) (value : JsValue ρ) (tree : Value) : Prop := ∃ depth, UnfoldsAt heap depth value tree

theorem UnfoldsAt.mono {heap : Heap ρ} {d d' : Nat} (hd : d ≤ d') {v : JsValue ρ} {t : Value} (h : UnfoldsAt heap d v t) :
    UnfoldsAt heap d' v t := by
  induction d generalizing d' v t with
  | zero => exact h.elim
  | succ d ih =>
      obtain ⟨e, rfl⟩ : ∃ e, d' = e + 1 := ⟨d' - 1, by omega⟩
      have hde : d ≤ e := by omega
      cases v with
      | ref r =>
          simp only [UnfoldsAt] at h ⊢
          split at h
          · obtain ⟨items, rfl, h⟩ := h
            exact ⟨items, rfl, h.imp fun _ _ hs => hs.imp_right fun ⟨v, hv, hu⟩ => ⟨v, hv, ih hde hu⟩⟩
          · obtain ⟨members, rfl, h⟩ := h
            exact ⟨members, rfl, h.imp fun _ _ ⟨hk, v, hv, hu⟩ => ⟨hk, v, hv, ih hde hu⟩⟩
          · exact h
          · exact h
      | _ => exact h

/-- The values held by an unfolded value unfold. -/
theorem UnfoldsAt.child {heap : Heap ρ} {d : Nat} {v w : JsValue ρ} {t : Value} (h : UnfoldsAt heap (d + 1) v t)
    (hvw : Holds heap v w) : ∃ u, UnfoldsAt heap d w u := by
  cases hvw with
  | element hr hmem =>
      simp only [UnfoldsAt, hr] at h
      obtain ⟨items, -, h⟩ := h
      obtain ⟨item, -, hs⟩ := forall₂_exists_right h hmem
      rcases hs with ⟨hs, -⟩ | ⟨v, hs, hu⟩
      · cases hs
      · cases hs
        exact ⟨item, hu⟩
  | property hr hmem =>
      simp only [UnfoldsAt, hr] at h
      obtain ⟨members, -, h⟩ := h
      obtain ⟨member, -, -, v, hs, hu⟩ := forall₂_exists_right h hmem
      cases hs
      exact ⟨member.2, hu⟩

theorem UnfoldsAt.acc {heap : Heap ρ} {d : Nat} {v : JsValue ρ} {t : Value} (h : UnfoldsAt heap d v t) :
    Acc (fun w v => Holds heap v w) v := by
  induction d generalizing v t with
  | zero => exact h.elim
  | succ d ih =>
      refine ⟨_, fun w hw => ?_⟩
      obtain ⟨u, hu⟩ := h.child hw
      exact ih hu

theorem Unfolds.not_cyclic {heap : Heap ρ} {v : JsValue ρ} {t : Value} (h : Unfolds heap v t) : ¬ Cyclic heap v := by
  obtain ⟨d, h⟩ := h
  exact not_cyclic_of_acc h.acc

/-! ## Recursive normalization -/

/-- What the traversal makes of an array slot, given what it makes of values. -/
def element (f : JsValue ρ → Except CanonicalFailure Value) : Option (Slot ρ) → Except CanonicalFailure Value
  | none => .ok .null
  | some .accessor => .error .accessorElement
  | some (.data value) => f value

/-- What the traversal makes of a property. -/
def property (f : JsValue ρ → Except CanonicalFailure Value) : Text × Slot ρ → Except CanonicalFailure (Text × Value)
  | (key, .accessor) => .error (.accessorProperty key)
  | (key, .data .undefined) | (key, .data .exotic) => .error (.unsupported key)
  | (key, .data value) => (f value).map fun v => (key, v)

/-- The same normalization by recursion; `ancestors` are the objects around the value. -/
def normalizeTree [DecidableEq ρ] (heap : Heap ρ) : Nat → List ρ → JsValue ρ → Except CanonicalFailure Value
  | 0, _, _ => .error .circular
  | depth + 1, ancestors, value =>
      match value with
      | .null => .ok .null
      | .bool b => .ok (.bool b)
      | .str s => .ok (.str s)
      | .num n => if n.isFinite then .ok (.num (if n = .zero true then .zero false else n)) else .error .notFinite
      | .undefined | .exotic => .error .notPlain
      | .ref r =>
          match heap r with
          | .proxy => .error .proxy
          | .otherPrototype => .error .notPlain
          | .array elements =>
              if r ∈ ancestors then .error .circular
              else (elements.mapM (element (normalizeTree heap depth (r :: ancestors)))).map .arr
          | .record properties =>
              if r ∈ ancestors then .error .circular
              else ((sortBy Prod.fst properties.slots).mapM (property (normalizeTree heap depth (r :: ancestors)))).map
                fun members => .obj (Json.ownOrder members)

section Traversal

variable [DecidableEq ρ] {heap : Heap ρ}

@[simp] theorem run_error (n : Nat) (e : CanonicalFailure) : run heap n (.error e) = some (.error e) := by
  cases n <;> rfl

@[simp] theorem run_closed (n : Nat) (v : Value) : run heap n (.ok (.closed v)) = some (.ok v) := by
  cases n <;> rfl

/-- The loop goes on as from another point. -/
def Leads (heap : Heap ρ) (from_ to_ : Except CanonicalFailure (Traversal ρ)) : Prop :=
  ∃ n, ∀ m, run heap (n + m) from_ = run heap m to_

theorem Leads.refl (t : Except CanonicalFailure (Traversal ρ)) : Leads heap t t := ⟨0, fun m => by rw [Nat.zero_add]⟩

theorem Leads.trans {a b c : Except CanonicalFailure (Traversal ρ)} (hab : Leads heap a b) (hbc : Leads heap b c) :
    Leads heap a c := by
  obtain ⟨n, hn⟩ := hab
  obtain ⟨k, hk⟩ := hbc
  exact ⟨n + k, fun m => by rw [Nat.add_assoc, hn, hk]⟩

theorem Leads.step (top : Frame ρ) (below : List (Frame ρ)) :
    Leads heap (.ok (.open top below)) (step heap (.open top below)) :=
  ⟨1, fun m => by rw [Nat.add_comm]; rfl⟩

/-- The loop on the elements that an array frame has left. -/
theorem leads_elements {r : ρ} {below : List (Frame ρ)} {f : JsValue ρ → Except CanonicalFailure Value}
    (hf : ∀ rest output v, Leads heap (normalize heap (.array r rest output :: below) v)
      ((f v).map fun value => deliver value (.array r rest output :: below)))
    (rest : List (Option (Slot ρ))) (output : List Value) :
    Leads heap (.ok (.open (.array r rest output) below))
      ((rest.mapM (element f)).map fun items => deliver (.arr (output ++ items)) below) := by
  induction rest generalizing output with
  | nil => simpa [mapM_nil_ok, Except.map, step] using Leads.step (.array r [] output) below
  | cons slot rest ih =>
      refine (Leads.step _ _).trans ?_
      have hslot : Leads heap (step heap (.open (.array r (slot :: rest) output) below))
          ((element f slot).map fun value => deliver value (.array r (slot :: rest) output :: below)) := by
        cases slot with
        | none => exact .refl _
        | some slot =>
            cases slot with
            | accessor => exact .refl _
            | data v => exact hf (some (.data v) :: rest) output v
      refine hslot.trans ?_
      rw [List.mapM_cons]
      cases element f slot with
      | error e => exact .refl _
      | ok value =>
          refine (ih (output ++ [value])).trans ?_
          rw [ok_bind]
          cases rest.mapM (element f) <;> simp [Except.map, Leads.refl]

/-- The loop on the properties that a record frame has left. -/
theorem leads_properties {r : ρ} {below : List (Frame ρ)} {f : JsValue ρ → Except CanonicalFailure Value}
    (hf : ∀ rest output v, Leads heap (normalize heap (.object r rest output :: below) v)
      ((f v).map fun value => deliver value (.object r rest output :: below)))
    (rest : List (Text × Slot ρ)) (output : List (Text × Value)) :
    Leads heap (.ok (.open (.object r rest output) below))
      ((rest.mapM (property f)).map fun members => deliver (.obj (Json.ownOrder (output ++ members))) below) := by
  induction rest generalizing output with
  | nil => simpa [mapM_nil_ok, Except.map, step] using Leads.step (.object r [] output) below
  | cons slot rest ih =>
      obtain ⟨key, slot⟩ := slot
      refine (Leads.step _ _).trans ?_
      have hslot : Leads heap (step heap (.open (.object r ((key, slot) :: rest) output) below))
          ((property f (key, slot)).map fun member => deliver member.2 (.object r ((key, slot) :: rest) output :: below)) ∧
          ∀ member, property f (key, slot) = .ok member → member.1 = key := by
        cases slot with
        | accessor => exact ⟨.refl _, fun _ h => by cases h⟩
        | data v =>
            have hv : Leads heap (normalize heap (.object r ((key, .data v) :: rest) output :: below) v)
                (((f v).map fun value => (key, value)).map fun member =>
                  deliver member.2 (.object r ((key, .data v) :: rest) output :: below)) := by
              have := hf ((key, .data v) :: rest) output v
              cases hfv : f v <;> simpa [hfv, Except.map] using this
            have hkey : ∀ member, ((f v).map fun value => (key, value)) = .ok member → member.1 = key := by
              intro member hm
              obtain ⟨value, -, rfl⟩ := map_eq_ok.mp hm
              rfl
            cases v with
            | undefined => exact ⟨.refl _, fun _ h => by cases h⟩
            | exotic => exact ⟨.refl _, fun _ h => by cases h⟩
            | _ => exact ⟨hv, hkey⟩
      refine hslot.1.trans ?_
      rw [List.mapM_cons]
      cases hp : property f (key, slot) with
      | error e => exact .refl _
      | ok member =>
          obtain ⟨k, value⟩ := member
          obtain rfl : k = key := hslot.2 _ hp
          refine (ih (output ++ [(k, value)])).trans ?_
          rw [ok_bind]
          cases rest.mapM (property f) <;> simp [Except.map, Leads.refl]

/-- The traversal of a value does what the recursion does, whatever frames are open. -/
theorem leads_normalize {bound : Nat} (hbound : ∀ ancestors : List ρ, ancestors.Nodup → ancestors.length ≤ bound) :
    ∀ (depth : Nat) (frames : List (Frame ρ)) (v : JsValue ρ), (frames.map Frame.input).Nodup →
      bound < depth + frames.length → Leads heap (normalize heap frames v)
        ((normalizeTree heap depth (frames.map Frame.input) v).map fun value => deliver value frames) := by
  intro depth
  induction depth with
  | zero =>
      intro frames v hnodup hdepth
      have := hbound _ hnodup
      rw [List.length_map] at this
      omega
  | succ depth ih =>
      intro frames v hnodup hdepth
      cases v with
      | num n =>
          simp only [normalize, normalizeTree]
          split <;> exact .refl _
      | ref r =>
          simp only [normalize, normalizeTree]
          cases hr : heap r with
          | proxy => exact .refl _
          | otherPrototype => exact .refl _
          | array elements =>
            dsimp only
            split
            · exact .refl _
            · rename_i hfresh
              have hopen := @leads_elements ρ _ heap r frames (normalizeTree heap depth (r :: frames.map Frame.input))
                (fun rest output w => ih (.array r rest output :: frames) w (List.nodup_cons.mpr ⟨hfresh, hnodup⟩)
                  (by rw [List.length_cons]; omega)) elements []
              rw [map_map]
              exact hopen
          | record properties =>
            dsimp only
            split
            · exact .refl _
            · rename_i hfresh
              have hopen := @leads_properties ρ _ heap r frames (normalizeTree heap depth (r :: frames.map Frame.input))
                (fun rest output w => ih (.object r rest output :: frames) w (List.nodup_cons.mpr ⟨hfresh, hnodup⟩)
                  (by rw [List.length_cons]; omega)) (sortBy Prod.fst properties.slots) []
              rw [map_map]
              exact hopen
      | _ => exact .refl _

end Traversal

/-! ## What the recursion yields -/

section Recursion

variable [DecidableEq ρ] {heap : Heap ρ}

theorem forall₂_orderedInsert {α β κ : Type} [LinearOrder κ] {f : α → κ} {g : β → κ} {R : α → β → Prop}
    (hkey : ∀ x y, R x y → f x = g y) {x : α} {y : β} (hxy : R x y) {xs : List α} {ys : List β} (h : xs.Forall₂ R ys) :
    (xs.orderedInsert (fun a b => f a ≤ f b) x).Forall₂ R (ys.orderedInsert (fun a b => g a ≤ g b) y) := by
  induction h with
  | nil => exact .cons hxy .nil
  | cons hab htail ih =>
      rw [List.orderedInsert_cons, List.orderedInsert_cons, hkey _ _ hxy, hkey _ _ hab]
      split
      · exact .cons hxy (.cons hab htail)
      · exact .cons hab ih

/-- Lists that agree on the keys place by place stay so when both are sorted. -/
theorem forall₂_sortBy {α β κ : Type} [LinearOrder κ] {f : α → κ} {g : β → κ} {R : α → β → Prop}
    (hkey : ∀ x y, R x y → f x = g y) {xs : List α} {ys : List β} (h : xs.Forall₂ R ys) :
    (sortBy f xs).Forall₂ R (sortBy g ys) := by
  induction h with
  | nil => exact .nil
  | cons hxy _ ih => exact forall₂_orderedInsert hkey hxy ih

theorem canonicalItems_eq_map (vs : List Value) : canonicalItems vs = vs.map canonical := by
  induction vs with
  | nil => rfl
  | cons v vs ih => rw [canonicalItems, ih, List.map_cons]

theorem isFiniteItems_iff {vs : List Value} : isFiniteItems vs ↔ ∀ v ∈ vs, isFinite v := by
  induction vs with
  | nil => simp [isFiniteItems]
  | cons v vs ih => simp [isFiniteItems, ih]

theorem uniqueKeysItems_iff {vs : List Value} : Json.UniqueKeysItems vs ↔ ∀ v ∈ vs, v.UniqueKeys := by
  induction vs with
  | nil => simp [Json.UniqueKeysItems]
  | cons v vs ih => simp [Json.UniqueKeysItems, ih]

/-- An unfolded value whose numbers are finite normalizes to the canonical value of its tree. -/
theorem normalizeTree_of_unfoldsAt {d : Nat} {ancestors : List ρ} {v : JsValue ρ} {t : Value}
    (h : UnfoldsAt heap d v t) (hfinite : isFinite t) (hfresh : ∀ r ∈ ancestors, ¬ Reaches heap v (.ref r)) :
    normalizeTree heap d ancestors v = .ok (canonical t) := by
  induction d generalizing ancestors v t with
  | zero => exact h.elim
  | succ d ih =>
      have hacc := not_cyclic_of_acc h.acc
      cases v with
      | ref r =>
          have hr : r ∉ ancestors := fun hr => hfresh r hr .refl
          -- below `r` neither an ancestor nor `r` itself occurs
          have hbelow : ∀ w, Holds heap (.ref r) w → ∀ r' ∈ r :: ancestors, ¬ Reaches heap w (.ref r') := by
            intro w hw r' hr' hreach
            rcases List.mem_cons.mp hr' with rfl | hr'
            · exact hacc ⟨r', .refl, .head' hw hreach⟩
            · exact hfresh r' hr' (.head hw hreach)
          simp only [UnfoldsAt] at h
          simp only [normalizeTree]
          cases hheap : heap r with
          | proxy => simp [hheap] at h
          | otherPrototype => simp [hheap] at h
          | array elements =>
              simp only [hheap] at h
              obtain ⟨items, rfl, h⟩ := h
              have hitems : elements.mapM (element (normalizeTree heap d (r :: ancestors))) = .ok (items.map canonical) := by
                rw [mapM_eq_ok, List.forall₂_map_right_iff]
                refine forall₂_imp_of_mem h ?_
                rintro slot hslot item hitem (⟨rfl, rfl⟩ | ⟨w, rfl, hu⟩)
                · rfl
                · exact ih hu (isFiniteItems_iff.mp hfinite item hitem) (hbelow w (.element hheap hslot))
              dsimp only
              rw [if_neg hr, hitems, canonical, canonicalItems_eq_map]
              rfl
          | record properties =>
              simp only [hheap] at h
              obtain ⟨members, rfl, h⟩ := h
              have hmembers : (sortBy Prod.fst properties.slots).mapM (property (normalizeTree heap d (r :: ancestors))) =
                  .ok ((sortBy Prod.fst members).map fun m => (m.1, canonical m.2)) := by
                rw [mapM_eq_ok, List.forall₂_map_right_iff]
                refine forall₂_imp_of_mem (forall₂_sortBy (fun _ _ hs => hs.1) h) ?_
                rintro ⟨key, slot⟩ hslot ⟨key', member⟩ hmember ⟨rfl, w, rfl, hu⟩
                rw [mem_sortBy] at hslot hmember
                have hw := ih hu (isFiniteMembers_iff.mp hfinite _ hmember) (hbelow w (.property hheap hslot))
                cases w with
                | undefined => cases d <;> exact hu.elim
                | exotic => cases d <;> exact hu.elim
                | _ => exact map_eq_ok.mpr ⟨_, hw, rfl⟩
              dsimp only
              rw [if_neg hr, hmembers, canonical, canonicalOrder, canonicalMembers_eq_map]
              exact congrArg (fun ms => Except.ok (Json.obj (Json.ownOrder ms)))
                (map_sortBy (fun m : Text × Value => (m.1, canonical m.2)) Prod.fst members)
      | num n =>
          cases h
          simp only [normalizeTree, canonical]
          exact if_pos hfinite
      | undefined => exact h.elim
      | exotic => exact h.elim
      | _ => cases h; rfl

/-- The values held by a value that normalizes do so as well. -/
theorem normalizeTree_child {d : Nat} {ancestors : List ρ} {v w : JsValue ρ} {n : Value}
    (h : normalizeTree heap (d + 1) ancestors v = .ok n) (hvw : Holds heap v w) :
    ∃ ancestors' m, normalizeTree heap d ancestors' w = .ok m := by
  cases hvw with
  | @element r elements w hr hmem =>
      simp only [normalizeTree, hr] at h
      split at h
      · cases h
      · obtain ⟨items, hitems, -⟩ := map_eq_ok.mp h
        obtain ⟨item, -, hw⟩ := forall₂_exists_right (mapM_eq_ok.mp hitems) hmem
        exact ⟨_, item, hw⟩
  | @property r properties key w hr hmem =>
      simp only [normalizeTree, hr] at h
      split at h
      · cases h
      · obtain ⟨members, hmembers, -⟩ := map_eq_ok.mp h
        obtain ⟨member, -, hw⟩ := forall₂_exists_right (mapM_eq_ok.mp hmembers) (mem_sortBy.mpr hmem)
        cases w with
        | undefined => cases hw
        | exotic => cases hw
        | _ =>
            obtain ⟨m, hm, -⟩ := map_eq_ok.mp hw
            exact ⟨_, m, hm⟩

theorem acc_of_normalizeTree {d : Nat} {ancestors : List ρ} {v : JsValue ρ} {n : Value}
    (h : normalizeTree heap d ancestors v = .ok n) : Acc (fun w v => Holds heap v w) v := by
  induction d generalizing ancestors v n with
  | zero => cases h
  | succ d ih =>
      refine ⟨_, fun w hw => ?_⟩
      obtain ⟨_, _, hm⟩ := normalizeTree_child h hw
      exact ih hm

theorem mapM_eq_error {α β ε : Type} {f : α → Except ε β} {xs : List α} {e : ε} (h : xs.mapM f = .error e) :
    ∃ x ∈ xs, f x = .error e := by
  induction xs with
  | nil => cases h
  | cons x xs ih =>
      rw [List.mapM_cons] at h
      cases hx : f x with
      | error e' =>
          rw [hx] at h
          cases h
          exact ⟨x, List.mem_cons_self, hx⟩
      | ok y =>
          rw [hx, ok_bind] at h
          cases hxs : xs.mapM f with
          | error e' =>
              rw [hxs] at h
              cases h
              obtain ⟨z, hz, hfz⟩ := ih hxs
              exact ⟨z, List.mem_cons_of_mem _ hz, hfz⟩
          | ok ys =>
              rw [hxs] at h
              cases h

/-- An admitted value is refused as circular or not at all. -/
theorem normalizeTree_error {d : Nat} {ancestors : List ρ} {v : JsValue ρ} {e : CanonicalFailure}
    (hv : Admitted heap v) (h : normalizeTree heap d ancestors v = .error e) : e = .circular := by
  induction d generalizing ancestors v with
  | zero => cases h; rfl
  | succ d ih =>
      have hplain := hv.plain
      cases v with
      | num n =>
          simp only [PlainData] at hplain
          simp only [normalizeTree, hplain, if_true] at h
          cases h
      | ref r =>
          simp only [PlainData] at hplain
          simp only [normalizeTree] at h
          cases hr : heap r with
          | proxy => simp [hr] at hplain
          | otherPrototype => simp [hr] at hplain
          | array elements =>
              simp only [hr] at h hplain
              split at h
              · cases h; rfl
              · obtain ⟨slot, hslot, hs⟩ := mapM_eq_error (map_eq_error.mp h)
                rcases slot with _ | _ | w
                · cases hs
                · exact ih (hv.child (.element hr hslot)) hs
                · exact absurd hslot hplain
          | record properties =>
              simp only [hr] at h hplain
              split at h
              · cases h; rfl
              · obtain ⟨⟨key, slot⟩, hslot, hs⟩ := mapM_eq_error (map_eq_error.mp h)
                rw [mem_sortBy] at hslot
                rcases slot with w | _
                · have hw := hv.child (.property hr hslot)
                  have hwplain := hw.plain
                  cases w with
                  | undefined => exact hwplain.elim
                  | exotic => exact hwplain.elim
                  | _ => exact ih hw (map_eq_error.mp hs)
                · exact absurd rfl (hplain _ hslot)
      | undefined => exact hplain.elim
      | exotic => exact hplain.elim
      | _ => cases h

omit [DecidableEq ρ] in
theorem forall₂_of_forall_exists {α β : Type} {R : α → β → Prop} {xs : List α} (h : ∀ x ∈ xs, ∃ y, R x y) :
    ∃ ys, xs.Forall₂ R ys := by
  induction xs with
  | nil => exact ⟨[], .nil⟩
  | cons x xs ih =>
      obtain ⟨y, hy⟩ := h x List.mem_cons_self
      obtain ⟨ys, hys⟩ := ih fun x hx => h x (List.mem_cons_of_mem _ hx)
      exact ⟨y :: ys, .cons hy hys⟩

omit [DecidableEq ρ] in
/-- An admitted value unfolds, or runs into an ancestor, or has a cycle. -/
theorem unfoldsAt_or_cyclic {bound : Nat} (hbound : ∀ ancestors : List ρ, ancestors.Nodup → ancestors.length ≤ bound)
    {d : Nat} {ancestors : List ρ} {v : JsValue ρ} (hv : Admitted heap v) (hnodup : ancestors.Nodup)
    (hd : bound < d + ancestors.length) :
    (∃ t, UnfoldsAt heap d v t) ∨ (∃ r ∈ ancestors, Reaches heap v (.ref r)) ∨ Cyclic heap v := by
  induction d generalizing ancestors v with
  | zero =>
      have := hbound _ hnodup
      omega
  | succ d ih =>
      by_cases hback : (∃ r ∈ ancestors, Reaches heap v (.ref r)) ∨ Cyclic heap v
      · exact .inr hback
      · refine .inl ?_
        have hplain := hv.plain
        cases v with
        | ref r =>
            have hr : r ∉ ancestors := fun hr => hback (.inl ⟨r, hr, .refl⟩)
            have hbelow : ∀ w, Holds heap (.ref r) w → ∃ t, UnfoldsAt heap d w t := by
              intro w hw
              rcases ih (hv.child hw) (List.nodup_cons.mpr ⟨hr, hnodup⟩) (by rw [List.length_cons]; omega) with
                hu | ⟨r', hr', hreach⟩ | hcyclic
              · exact hu
              · rcases List.mem_cons.mp hr' with rfl | hr'
                · exact absurd (.inr ⟨r', .refl, .head' hw hreach⟩) hback
                · exact absurd (.inl ⟨r', hr', .head hw hreach⟩) hback
              · exact absurd (.inr (hcyclic.of_child hw)) hback
            simp only [PlainData] at hplain
            simp only [UnfoldsAt]
            cases hheap : heap r with
            | proxy => simp [hheap] at hplain
            | otherPrototype => simp [hheap] at hplain
            | array elements =>
                simp only [hheap] at hplain
                have hitem : ∀ slot ∈ elements, ∃ item,
                    (slot = none ∧ item = .null) ∨ ∃ v, slot = some (.data v) ∧ UnfoldsAt heap d v item := by
                  rintro (_ | w | _) hslot
                  · exact ⟨.null, .inl ⟨rfl, rfl⟩⟩
                  · obtain ⟨t, ht⟩ := hbelow w (.element hheap hslot)
                    exact ⟨t, .inr ⟨w, rfl, ht⟩⟩
                  · exact absurd hslot hplain
                obtain ⟨items, hitems⟩ := forall₂_of_forall_exists hitem
                exact ⟨_, items, rfl, hitems⟩
            | record properties =>
                simp only [hheap] at hplain
                have hmember : ∀ slot ∈ properties.slots, ∃ member : Text × Value,
                    slot.1 = member.1 ∧ ∃ v, slot.2 = .data v ∧ UnfoldsAt heap d v member.2 := by
                  rintro ⟨key, w | _⟩ hslot
                  · obtain ⟨t, ht⟩ := hbelow w (.property hheap hslot)
                    exact ⟨(key, t), rfl, w, rfl, ht⟩
                  · exact absurd rfl (hplain _ hslot)
                obtain ⟨members, hmembers⟩ := forall₂_of_forall_exists hmember
                exact ⟨_, members, rfl, hmembers⟩
        | undefined => exact hplain.elim
        | exotic => exact hplain.elim
        | null => exact ⟨.null, rfl⟩
        | bool b => exact ⟨.bool b, rfl⟩
        | num n => exact ⟨.num n, rfl⟩
        | str s => exact ⟨.str s, rfl⟩

omit [DecidableEq ρ] in
theorem UnfoldsAt.isFinite {d : Nat} {v : JsValue ρ} {t : Value} (h : UnfoldsAt heap d v t) (hv : Admitted heap v) :
    isFinite t := by
  induction d generalizing v t with
  | zero => exact h.elim
  | succ d ih =>
      cases v with
      | ref r =>
          simp only [UnfoldsAt] at h
          cases hheap : heap r with
          | proxy => simp [hheap] at h
          | otherPrototype => simp [hheap] at h
          | array elements =>
              simp only [hheap] at h
              obtain ⟨items, rfl, h⟩ := h
              refine isFiniteItems_iff.mpr fun item hitem => ?_
              obtain ⟨slot, hslot, hs⟩ := forall₂_exists_right h.flip hitem
              rcases hs with ⟨-, rfl⟩ | ⟨w, rfl, hu⟩
              · rfl
              · exact ih hu (hv.child (.element hheap hslot))
          | record properties =>
              simp only [hheap] at h
              obtain ⟨members, rfl, h⟩ := h
              refine isFiniteMembers_iff.mpr fun member hmember => ?_
              obtain ⟨⟨key, slot⟩, hslot, -, w, rfl, hu⟩ := forall₂_exists_right h.flip hmember
              exact ih hu (hv.child (.property hheap hslot))
      | num n => cases h; exact hv.plain
      | undefined => exact h.elim
      | exotic => exact h.elim
      | _ => cases h; rfl

omit [DecidableEq ρ] in
/-- The keys of an unfolded record are those of the object. -/
theorem UnfoldsAt.uniqueKeys {d : Nat} {v : JsValue ρ} {t : Value} (h : UnfoldsAt heap d v t) : t.UniqueKeys := by
  induction d generalizing v t with
  | zero => exact h.elim
  | succ d ih =>
      cases v with
      | ref r =>
          simp only [UnfoldsAt] at h
          cases hheap : heap r with
          | proxy => simp [hheap] at h
          | otherPrototype => simp [hheap] at h
          | array elements =>
              simp only [hheap] at h
              obtain ⟨items, rfl, h⟩ := h
              refine uniqueKeysItems_iff.mpr fun item hitem => ?_
              obtain ⟨slot, -, hs⟩ := forall₂_exists_right h.flip hitem
              rcases hs with ⟨-, rfl⟩ | ⟨w, rfl, hu⟩
              · trivial
              · exact ih hu
          | record properties =>
              simp only [hheap] at h
              obtain ⟨members, rfl, h⟩ := h
              have hkeys : properties.slots.map Prod.fst = members.map Prod.fst := by
                rw [← List.forall₂_eq_eq_eq, List.forall₂_map_left_iff, List.forall₂_map_right_iff]
                exact h.imp fun _ _ hs => hs.1
              refine ⟨hkeys ▸ properties.nodup, Json.uniqueKeysMembers_iff.mpr fun member hmember => ?_⟩
              obtain ⟨slot, -, -, w, -, hu⟩ := forall₂_exists_right h.flip hmember
              exact ih hu
      | undefined => exact h.elim
      | exotic => exact h.elim
      | _ => cases h; trivial

end Recursion

/-! ## Termination -/

/-- With enough fuel the result is always the same. -/
def Terminates {α : Type} (f : Nat → Option α) (result : α) : Prop := ∃ n, ∀ fuel, n ≤ fuel → f fuel = some result

theorem Terminates.unique {α : Type} {f : Nat → Option α} {a b : α} (ha : Terminates f a) (hb : Terminates f b) : a = b := by
  obtain ⟨n, hn⟩ := ha
  obtain ⟨k, hk⟩ := hb
  exact Option.some.inj ((hn (max n k) (le_max_left n k)).symm.trans (hk (max n k) (le_max_right n k)))

theorem Terminates.map {α β : Type} {f : Nat → Option α} {a : α} (h : Terminates f a) (g : α → β) :
    Terminates (fun fuel => (f fuel).map g) (g a) := by
  obtain ⟨n, hn⟩ := h
  exact ⟨n, fun fuel hfuel => congrArg (Option.map g) (hn fuel hfuel)⟩

section Termination

variable [DecidableEq ρ] [Finite ρ] {heap : Heap ρ}

omit [DecidableEq ρ] in
theorem length_le_card {ancestors : List ρ} (h : ancestors.Nodup) : ancestors.length ≤ Nat.card ρ := by
  have := Fintype.ofFinite ρ
  rw [Nat.card_eq_fintype_card]
  exact h.length_le_card

/-- The traversal ends as the recursion does. -/
theorem terminates_of_depth {d : Nat} (hd : Nat.card ρ < d) (v : JsValue ρ) :
    Terminates (canonicalJson heap v) (normalizeTree heap d [] v) := by
  obtain ⟨n, hn⟩ := @leads_normalize ρ _ heap _ (fun _ => length_le_card) d [] v .nil hd
  refine ⟨n, fun fuel hfuel => ?_⟩
  obtain ⟨m, rfl⟩ := Nat.exists_eq_add_of_le hfuel
  rw [canonicalJson, hn, List.map_nil]
  cases normalizeTree heap d [] v <;> simp [Except.map, deliver]

/-- A value that unfolds is normalized to the canonical value of its tree. -/
theorem Unfolds.terminates {v : JsValue ρ} {t : Value} (h : Unfolds heap v t) (hfinite : isFinite t) :
    Terminates (canonicalJson heap v) (.ok (canonical t)) := by
  obtain ⟨d, h⟩ := h
  have hdeep := h.mono (le_max_left d (Nat.card ρ + 1))
  rw [← normalizeTree_of_unfoldsAt hdeep hfinite fun r hr => absurd hr List.not_mem_nil]
  exact terminates_of_depth (lt_of_lt_of_le (Nat.lt_succ_self _) (le_max_right d (Nat.card ρ + 1))) v

omit [DecidableEq ρ] in
theorem exists_unfolds {v : JsValue ρ} (hv : Admitted heap v) (hc : ¬ Cyclic heap v) : ∃ t, Unfolds heap v t := by
  rcases unfoldsAt_or_cyclic (fun _ => length_le_card) hv List.nodup_nil (Nat.lt_succ_self (Nat.card ρ)) with ⟨t, ht⟩ | ⟨_, hr, _⟩ | hcyclic
  · exact ⟨t, _, ht⟩
  · cases hr
  · exact absurd hcyclic hc

/-- A value with a cycle is refused as circular. -/
theorem Cyclic.terminates {v : JsValue ρ} (hc : Cyclic heap v) (hv : Admitted heap v) :
    Terminates (canonicalJson heap v) (.error .circular) := by
  have hend := @terminates_of_depth ρ _ _ heap _ (Nat.lt_succ_self (Nat.card ρ)) v
  cases hn : normalizeTree heap (Nat.card ρ + 1) [] v with
  | ok n => exact absurd hc (not_cyclic_of_acc (acc_of_normalizeTree hn))
  | error e =>
      rw [hn, normalizeTree_error hv hn] at hend
      exact hend

/-- An admitted value is normalized, or it has a cycle and is refused. -/
theorem Admitted.normalized_or_circular {v : JsValue ρ} (hv : Admitted heap v) :
    (∃ t, Unfolds heap v t ∧ isFinite t ∧ t.UniqueKeys ∧ Terminates (canonicalJson heap v) (.ok (canonical t))) ∨
      (Cyclic heap v ∧ Terminates (canonicalJson heap v) (.error .circular)) := by
  by_cases hc : Cyclic heap v
  · exact .inr ⟨hc, hc.terminates hv⟩
  · obtain ⟨t, d, ht⟩ := exists_unfolds hv hc
    have hfinite := ht.isFinite hv
    exact .inl ⟨t, ⟨d, ht⟩, hfinite, ht.uniqueKeys, Unfolds.terminates ⟨d, ht⟩ hfinite⟩

/-- What an admitted value normalizes to. -/
theorem Admitted.normalized {v : JsValue ρ} (hv : Admitted heap v) {n : Value}
    (hn : Terminates (canonicalJson heap v) (.ok n)) :
    ∃ t, Unfolds heap v t ∧ isFinite t ∧ t.UniqueKeys ∧ n = canonical t := by
  rcases hv.normalized_or_circular with ⟨t, ht, hfinite, hkeys, hend⟩ | ⟨-, hend⟩
  · exact ⟨t, ht, hfinite, hkeys, Except.ok.inj (hn.unique hend)⟩
  · cases hn.unique hend

end Termination

end SecPlatform.Contracts.ObjectGraph
