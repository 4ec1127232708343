import Mathlib.Data.List.Forall2
import Mathlib.Logic.Basic

/-!
# Computations that may throw

Rules for `Except`: what a successful sequence, loop or check says about its parts.
-/

namespace SecPlatform

variable {ε α β γ : Type}

/-! ## Sequences -/

@[simp] theorem ok_bind (a : α) (f : α → Except ε β) : ((.ok a : Except ε α) >>= f) = f a := rfl

@[simp] theorem error_bind (e : ε) (f : α → Except ε β) : ((.error e : Except ε α) >>= f) = .error e := rfl

@[simp] theorem pure_eq_ok (a : α) : (pure a : Except ε α) = .ok a := rfl

@[simp] theorem throw_eq_error (e : ε) : (throw e : Except ε α) = .error e := rfl

theorem bind_eq_ok {x : Except ε α} {f : α → Except ε β} {b : β} :
    (x >>= f) = .ok b ↔ ∃ a, x = .ok a ∧ f a = .ok b := by
  cases x <;> simp

/-- A check that passed, before the rest of a sequence. -/
theorem check_bind_eq_ok {x : Except ε Unit} {f : Unit → Except ε β} {b : β} :
    (x >>= f) = .ok b ↔ x = .ok () ∧ f () = .ok b := by
  cases x <;> simp

theorem bind_eq_error {x : Except ε α} {f : α → Except ε β} {e : ε} :
    (x >>= f) = .error e ↔ x = .error e ∨ ∃ a, x = .ok a ∧ f a = .error e := by
  cases x <;> simp

theorem map_eq_ok {x : Except ε α} {f : α → β} {b : β} : x.map f = .ok b ↔ ∃ a, x = .ok a ∧ f a = b := by
  cases x <;> simp [Except.map]

theorem map_eq_error {x : Except ε α} {f : α → β} {e : ε} : x.map f = .error e ↔ x = .error e := by
  cases x <;> simp [Except.map]

theorem map_map (x : Except ε α) (f : α → β) (g : β → γ) : (x.map f).map g = x.map fun a => g (f a) := by
  cases x <;> rfl

theorem mapError_eq_ok {ε' : Type} {x : Except ε α} {f : ε → ε'} {a : α} : x.mapError f = .ok a ↔ x = .ok a := by
  cases x <;> simp [Except.mapError]

theorem mapError_eq_error {ε' : Type} {x : Except ε α} {f : ε → ε'} {e : ε'} :
    x.mapError f = .error e ↔ ∃ e', x = .error e' ∧ f e' = e := by
  cases x <;> simp [Except.mapError]

/-- The value of a computation that does not throw. -/
def Succeeds (x : Except ε α) : Prop := ∃ a, x = .ok a

/-- A check throws its error unless its condition holds. -/
def require (p : Prop) [Decidable p] (e : ε) : Except ε Unit := if p then .ok () else .error e

theorem require_eq_error {p : Prop} [Decidable p] {e e' : ε} : require p e = .error e' ↔ ¬p ∧ e = e' := by
  unfold require; split <;> simp [*]

@[simp] theorem require_eq_ok {p : Prop} [Decidable p] {e : ε} {u : Unit} : require p e = .ok u ↔ p := by
  unfold require; split <;> simp [*]

/-! ## Computations that differ in their errors -/

/-- The second computation has the result of the first one, if there is one. -/
def Follows (x y : Except ε α) : Prop := ∀ a, x = .ok a → y = .ok a

theorem Follows.refl (x : Except ε α) : Follows x x := fun _ h => h

theorem Follows.bind {x y : Except ε α} {f g : α → Except ε β} (h : Follows x y) (hnext : ∀ a, Follows (f a) (g a)) :
    Follows (x >>= f) (y >>= g) := by
  intro b hb
  obtain ⟨a, ha, hb⟩ := bind_eq_ok.mp hb
  exact bind_eq_ok.mpr ⟨a, h a ha, hnext a b hb⟩

theorem Follows.require {p p' : Prop} [Decidable p] [Decidable p'] {e e' : ε} (h : p → p') :
    Follows (require p e) (SecPlatform.require p' e') :=
  fun _ hp => require_eq_ok.mpr (h (require_eq_ok.mp hp))

/-! ## Loops -/

@[simp] theorem forM_nil_ok (f : α → Except ε Unit) : ([] : List α).forM f = .ok () := rfl

theorem forM_cons_eq_ok {f : α → Except ε Unit} {x : α} {xs : List α} :
    (x :: xs).forM f = .ok () ↔ f x = .ok () ∧ xs.forM f = .ok () := by
  change (f x >>= fun _ => xs.forM f) = .ok () ↔ _
  rw [bind_eq_ok]
  exact ⟨fun ⟨_, h⟩ => h, fun h => ⟨(), h⟩⟩

/-- A loop of checks passes when every check does. -/
theorem forM_eq_ok {f : α → Except ε Unit} {xs : List α} :
    xs.forM f = .ok () ↔ ∀ x ∈ xs, f x = .ok () := by
  induction xs with
  | nil => simp
  | cons x xs ih => rw [forM_cons_eq_ok, ih, List.forall_mem_cons]

/-- A loop of checks fails in one of them. -/
theorem exists_of_forM_error {f : α → Except ε Unit} {xs : List α} {e : ε} (h : xs.forM f = .error e) :
    ∃ x ∈ xs, f x = .error e := by
  induction xs with
  | nil => cases h
  | cons x xs ih =>
      change (f x >>= fun _ => xs.forM f) = .error e at h
      cases hx : f x with
      | error e' =>
          rw [hx] at h
          exact ⟨x, List.mem_cons_self, hx.trans h⟩
      | ok u =>
          rw [hx, ok_bind] at h
          obtain ⟨y, hy, hcall⟩ := ih h
          exact ⟨y, List.mem_cons_of_mem _ hy, hcall⟩

theorem mapM_nil_ok (f : α → Except ε β) : ([] : List α).mapM f = .ok [] := rfl

theorem mapM_cons_eq_ok {f : α → Except ε β} {x : α} {xs : List α} {ys : List β} :
    (x :: xs).mapM f = .ok ys ↔ ∃ y ys', f x = .ok y ∧ xs.mapM f = .ok ys' ∧ ys = y :: ys' := by
  simp only [List.mapM_cons, bind_eq_ok, pure_eq_ok, Except.ok.injEq]
  constructor
  · rintro ⟨y, hy, ys', hys, rfl⟩; exact ⟨y, ys', hy, hys, rfl⟩
  · rintro ⟨y, ys', hy, hys, rfl⟩; exact ⟨y, hy, ys', hys, rfl⟩

/-- A mapping loop succeeds with the results of its calls. -/
theorem mapM_eq_ok {f : α → Except ε β} {xs : List α} {ys : List β} :
    xs.mapM f = .ok ys ↔ List.Forall₂ (fun x y => f x = .ok y) xs ys := by
  induction xs generalizing ys with
  | nil => simp [eq_comm]
  | cons x xs ih =>
      rw [mapM_cons_eq_ok]
      constructor
      · rintro ⟨y, ys', hy, hys, rfl⟩; exact .cons hy (ih.mp hys)
      · intro h
        cases h with
        | cons hy hys => exact ⟨_, _, hy, ih.mpr hys, rfl⟩

theorem mapM_eq_ok_map {f : α → Except ε β} {g : α → β} {xs : List α} (h : ∀ x ∈ xs, f x = .ok (g x)) :
    xs.mapM f = .ok (xs.map g) := by
  rw [mapM_eq_ok, List.forall₂_map_right_iff]
  exact List.forall₂_same.mpr h

/-- A mapping loop fails in one of its calls. -/
theorem exists_of_mapM_error {f : α → Except ε β} {xs : List α} {e : ε} (h : xs.mapM f = .error e) :
    ∃ x ∈ xs, f x = .error e := by
  induction xs with
  | nil => cases h
  | cons x xs ih =>
      rw [List.mapM_cons] at h
      rcases bind_eq_error.mp h with h | ⟨y, -, h⟩
      · exact ⟨x, List.mem_cons_self, h⟩
      · rcases bind_eq_error.mp h with h | ⟨ys, -, h⟩
        · obtain ⟨z, hz, hcall⟩ := ih h
          exact ⟨z, List.mem_cons_of_mem _ hz, hcall⟩
        · cases h

/-- A result of a mapping loop is the result of one of its calls. -/
theorem exists_of_mem_mapM {f : α → Except ε β} {xs : List α} {ys : List β} (h : xs.mapM f = .ok ys) {y : β}
    (hy : y ∈ ys) : ∃ x ∈ xs, f x = .ok y := by
  have hcalls := mapM_eq_ok.mp h
  clear h
  induction hcalls with
  | nil => simp at hy
  | @cons x z xs ys hx _ ih =>
      rcases List.mem_cons.mp hy with rfl | hy
      · exact ⟨x, List.mem_cons_self, hx⟩
      · obtain ⟨w, hw, hwy⟩ := ih hy
        exact ⟨w, List.mem_cons_of_mem _ hw, hwy⟩

/-- Every call of a mapping loop has its result among those of the loop. -/
theorem exists_ok_of_mem_mapM {f : α → Except ε β} {xs : List α} {ys : List β} (h : xs.mapM f = .ok ys) {x : α}
    (hx : x ∈ xs) : ∃ y ∈ ys, f x = .ok y := by
  have hcalls := mapM_eq_ok.mp h
  clear h
  induction hcalls with
  | nil => simp at hx
  | @cons z y xs ys hz _ ih =>
      rcases List.mem_cons.mp hx with rfl | hx
      · exact ⟨y, List.mem_cons_self, hz⟩
      · obtain ⟨w, hw, hwx⟩ := ih hx
        exact ⟨w, List.mem_cons_of_mem _ hw, hwx⟩

/-- What every turn of a loop preserves holds at its end. -/
theorem foldlM_invariant {f : β → α → Except ε β} {P : β → Prop}
    (step : ∀ b a b', P b → f b a = .ok b' → P b') {xs : List α} {b b' : β} (h0 : P b)
    (h : xs.foldlM f b = .ok b') : P b' := by
  induction xs generalizing b with
  | nil =>
      simp only [List.foldlM_nil, pure_eq_ok, Except.ok.injEq] at h
      rwa [← h]
  | cons x xs ih =>
      simp only [List.foldlM_cons, bind_eq_ok] at h
      obtain ⟨c, hc, h⟩ := h
      exact ih (step _ _ _ h0 hc) h

/-- The rule for invariants that speak of the elements so far. -/
theorem foldlM_prefix {f : β → α → Except ε β} {P : List α → β → Prop}
    (step : ∀ ys b a b', P ys b → f b a = .ok b' → P (ys ++ [a]) b') {ys xs : List α} {b b' : β} (h0 : P ys b)
    (h : xs.foldlM f b = .ok b') : P (ys ++ xs) b' := by
  induction xs generalizing ys b with
  | nil =>
      simp only [List.foldlM_nil, pure_eq_ok, Except.ok.injEq] at h
      rwa [← h, List.append_nil]
  | cons x xs ih =>
      simp only [List.foldlM_cons, bind_eq_ok] at h
      obtain ⟨c, hc, h⟩ := h
      rw [List.append_cons]
      exact ih (step _ _ _ _ h0 hc) h

/-- The same rule from the start of the loop on. -/
theorem foldlM_rule {f : β → α → Except ε β} {P : List α → β → Prop}
    (step : ∀ ys b a b', P ys b → f b a = .ok b' → P (ys ++ [a]) b') {xs : List α} {b b' : β} (h0 : P [] b)
    (h : xs.foldlM f b = .ok b') : P xs b' := foldlM_prefix step h0 h

/-- A loop that fails does so in one of its turns. -/
theorem exists_of_foldlM_error {f : β → α → Except ε β} {xs : List α} {b : β} {e : ε} (h : xs.foldlM f b = .error e) :
    ∃ ys x zs c, xs = ys ++ x :: zs ∧ ys.foldlM f b = .ok c ∧ f c x = .error e := by
  induction xs generalizing b with
  | nil => cases h
  | cons x xs ih =>
      rw [List.foldlM_cons] at h
      cases hx : f b x with
      | error e' =>
          rw [hx] at h
          exact ⟨[], x, xs, b, rfl, rfl, hx.trans h⟩
      | ok c =>
          rw [hx, ok_bind] at h
          obtain ⟨ys, y, zs, d, rfl, hys, hy⟩ := ih h
          exact ⟨x :: ys, y, zs, d, rfl, by rw [List.foldlM_cons, hx, ok_bind, hys], hy⟩

/-- A loop succeeds when each turn does, as long as the invariant holds. -/
theorem foldlM_succeeds {f : β → α → Except ε β} {P : List α → β → Prop} {xs : List α}
    (step : ∀ ys a b, (∀ y ∈ ys ++ [a], y ∈ xs) → P ys b → ∃ b', f b a = .ok b' ∧ P (ys ++ [a]) b') {b : β}
    (h0 : P [] b) : ∃ b', xs.foldlM f b = .ok b' ∧ P xs b' := by
  have hrun : ∀ ys zs b, ys ++ zs = xs → P ys b → ∃ b', zs.foldlM f b = .ok b' ∧ P xs b' := by
    intro ys zs
    induction zs generalizing ys with
    | nil =>
        intro b hxs h
        rw [List.append_nil] at hxs
        exact ⟨b, rfl, hxs ▸ h⟩
    | cons z zs ih =>
        intro b hxs h
        rw [List.append_cons] at hxs
        obtain ⟨c, hc, h⟩ := step ys z b (fun y hy => by rw [← hxs]; exact List.mem_append_left _ hy) h
        obtain ⟨b', hb, h⟩ := ih (ys ++ [z]) c hxs h
        refine ⟨b', ?_, h⟩
        rw [List.foldlM_cons, hc, ok_bind]
        exact hb
  exact hrun [] xs b rfl h0

section Pairwise

variable {f : β → α → Except ε β} {P : List α → β → Prop} {R : α → α → Prop}

/-- A loop whose turns demand a relation to every element before is over elements that are pairwise related. -/
theorem foldlM_pairwise (step : ∀ ys b a b', P ys b → f b a = .ok b' → (∀ y ∈ ys, R y a) ∧ P (ys ++ [a]) b')
    {xs : List α} {b b' : β} (h0 : P [] b) (h : xs.foldlM f b = .ok b') : xs.Pairwise R ∧ P xs b' := by
  refine foldlM_rule (P := fun ys b => ys.Pairwise R ∧ P ys b) (fun ys b a b' hys hturn => ?_) ⟨.nil, h0⟩ h
  obtain ⟨hrelated, hnext⟩ := step ys b a b' hys.2 hturn
  refine ⟨List.pairwise_append.mpr ⟨hys.1, List.pairwise_singleton _ _, fun y hy a' ha' => ?_⟩, hnext⟩
  obtain rfl := List.mem_singleton.mp ha'
  exact hrelated y hy

/-- And it succeeds over such elements when the relation is all that a turn demands. -/
theorem foldlM_of_pairwise (step : ∀ ys b a b', P ys b → f b a = .ok b' → (∀ y ∈ ys, R y a) ∧ P (ys ++ [a]) b')
    {xs : List α} (hturn : ∀ ys b, ∀ a ∈ xs, P ys b → (∀ y ∈ ys, R y a) → ∃ b', f b a = .ok b') {b : β} (h0 : P [] b)
    (h : xs.Pairwise R) : ∃ b', xs.foldlM f b = .ok b' := by
  cases hrun : xs.foldlM f b with
  | ok b' => exact ⟨b', rfl⟩
  | error e =>
      obtain ⟨ys, x, zs, c, rfl, hys, hx⟩ := exists_of_foldlM_error hrun
      have hrelated : ∀ y ∈ ys, R y x := fun y hy => (List.pairwise_append.mp h).2.2 y hy x List.mem_cons_self
      obtain ⟨d, hd⟩ := hturn ys c x (by simp) (foldlM_pairwise step h0 hys).2 hrelated
      rw [hx] at hd
      cases hd

end Pairwise

/-- A loop whose turns are loops without failures is one loop. -/
theorem foldlM_eq_flatMap {f : β → α → Except ε β} {g : α → List γ} {h : β → γ → β} {xs : List α}
    (hf : ∀ a ∈ xs, ∀ b, f b a = .ok ((g a).foldl h b)) (b : β) : xs.foldlM f b = .ok ((xs.flatMap g).foldl h b) := by
  induction xs generalizing b with
  | nil => rfl
  | cons x xs ih =>
      rw [List.foldlM_cons, hf x List.mem_cons_self, ok_bind, ih fun a ha => hf a (List.mem_cons_of_mem _ ha),
        List.flatMap_cons, List.foldl_append]

/-! ## Loops over different entries -/

section Unique

variable {κ : Type} [DecidableEq κ] {key : α → κ} {check : Nat → α → Except ε Unit} {repeated : α → ε}

/-- A loop that checks each entry and then that its key is new; `seen` holds the keys before. -/
def forUnique (key : α → κ) (check : Nat → α → Except ε Unit) (repeated : α → ε) (seen : List κ) :
    List α → Except ε Unit
  | [] => .ok ()
  | x :: xs => do
      check seen.length x
      require (key x ∉ seen) (repeated x)
      forUnique key check repeated (key x :: seen) xs

theorem forUnique_seen_eq_ok {P : α → Prop} (hcheck : ∀ i x, check i x = .ok () ↔ P x) {seen : List κ} {xs : List α} :
    forUnique key check repeated seen xs = .ok () ↔
      (∀ x ∈ xs, P x) ∧ (xs.map key).Nodup ∧ ∀ x ∈ xs, key x ∉ seen := by
  induction xs generalizing seen with
  | nil => simp [forUnique]
  | cons x xs ih =>
      rw [forUnique, check_bind_eq_ok, check_bind_eq_ok, require_eq_ok, hcheck, ih, List.forall_mem_cons,
        List.forall_mem_cons, List.map_cons, List.nodup_cons, List.mem_map]
      constructor
      · rintro ⟨hx, hseen, hxs, hnodup, hfresh⟩
        refine ⟨⟨hx, hxs⟩, ⟨?_, hnodup⟩, hseen, fun y hy h => hfresh y hy (List.mem_cons_of_mem _ h)⟩
        rintro ⟨y, hy, h⟩
        exact hfresh y hy (h ▸ List.mem_cons_self)
      · rintro ⟨⟨hx, hxs⟩, ⟨hnot, hnodup⟩, hseen, hfresh⟩
        refine ⟨hx, hseen, hxs, hnodup, fun y hy h => ?_⟩
        rcases List.mem_cons.mp h with h | h
        · exact hnot ⟨y, hy, h⟩
        · exact hfresh y hy h

/-- The loop passes when every entry passes its check and no key is repeated. -/
theorem forUnique_eq_ok {P : α → Prop} (hcheck : ∀ i x, check i x = .ok () ↔ P x) {xs : List α} :
    forUnique key check repeated [] xs = .ok () ↔ (∀ x ∈ xs, P x) ∧ (xs.map key).Nodup := by
  rw [forUnique_seen_eq_ok hcheck]
  simp

end Unique

end SecPlatform
