import SecPlatform.Library.Calls

/-!
# Calls in a world that others change

The requests of a run read and change a world. Before each of them, others may have changed it; without others, each
request meets the world as the one before left it.
-/

namespace SecPlatform

variable {σ κ : Type} {ρ : κ → Type}

/-- The requests lead from one world to another, each of them made after the others have moved. -/
inductive Passes (perform : σ → (k : κ) → ρ k → σ → Prop) (others : κ → σ → σ → Prop) :
    σ → List (Calls.Event κ ρ) → σ → Prop
  | done (s) : Passes perform others s [] s
  | step {s s₁ s₂ s' k answer events} (hothers : others k s s₁) (hperform : perform s₁ k answer s₂)
      (h : Passes perform others s₂ events s') : Passes perform others s (⟨k, answer⟩ :: events) s'

/-- The others do nothing. -/
def Undisturbed (_ : κ) (s s' : σ) : Prop := s' = s

variable {perform : σ → (k : κ) → ρ k → σ → Prop} {others : κ → σ → σ → Prop} {s s' : σ}

theorem passes_nil : Passes perform others s [] s' ↔ s' = s := by
  constructor
  · intro h
    cases h
    rfl
  · rintro rfl
    exact .done _

theorem passes_cons {event : Calls.Event κ ρ} {events : List (Calls.Event κ ρ)} :
    Passes perform others s (event :: events) s' ↔ ∃ s₁ s₂, others event.request s s₁ ∧
      perform s₁ event.request event.answer s₂ ∧ Passes perform others s₂ events s' := by
  constructor
  · intro h
    cases h with
    | step hothers hperform h => exact ⟨_, _, hothers, hperform, h⟩
  · rintro ⟨s₁, s₂, hothers, hperform, h⟩
    exact .step hothers hperform h

theorem passes_append {before after : List (Calls.Event κ ρ)} :
    Passes perform others s (before ++ after) s' ↔
      ∃ s₁, Passes perform others s before s₁ ∧ Passes perform others s₁ after s' := by
  induction before generalizing s with
  | nil => simp [passes_nil]
  | cons event before ih =>
      rw [List.cons_append, passes_cons]
      constructor
      · rintro ⟨s₁, s₂, hothers, hperform, h⟩
        obtain ⟨s₃, hbefore, hafter⟩ := ih.mp h
        exact ⟨s₃, passes_cons.mpr ⟨s₁, s₂, hothers, hperform, hbefore⟩, hafter⟩
      · rintro ⟨s₃, hbefore, hafter⟩
        obtain ⟨s₁, s₂, hothers, hperform, hbefore⟩ := passes_cons.mp hbefore
        exact ⟨s₁, s₂, hothers, hperform, ih.mpr ⟨s₃, hbefore, hafter⟩⟩

theorem Passes.mono {perform' : σ → (k : κ) → ρ k → σ → Prop} {others' : κ → σ → σ → Prop}
    {events : List (Calls.Event κ ρ)} (h : Passes perform others s events s')
    (hothers : ∀ k s₁ s₂, others k s₁ s₂ → others' k s₁ s₂)
    (hperform : ∀ s₁ k answer s₂, perform s₁ k answer s₂ → perform' s₁ k answer s₂) :
    Passes perform' others' s events s' := by
  induction h with
  | done => exact .done _
  | step hmove hanswer _ ih => exact .step (hothers _ _ _ hmove) (hperform _ _ _ _ hanswer) ih

/-- Without others, a request meets the world as it is. -/
theorem passes_undisturbed {event : Calls.Event κ ρ} {events : List (Calls.Event κ ρ)} :
    Passes perform Undisturbed s (event :: events) s' ↔
      ∃ s₁, perform s event.request event.answer s₁ ∧ Passes perform Undisturbed s₁ events s' := by
  rw [passes_cons]
  constructor
  · rintro ⟨_, s₂, rfl, hperform, h⟩
    exact ⟨s₂, hperform, h⟩
  · rintro ⟨s₂, hperform, h⟩
    exact ⟨s, s₂, rfl, hperform, h⟩

/-! ## Runs that can be computed -/

namespace Calls

variable {α : Type}

/-- The run in which every request is answered by the world. -/
def runIn (respond : σ → (k : κ) → ρ k × σ) : σ → Calls κ ρ α → List (Event κ ρ) × α × σ
  | s, .done a => ([], a, s)
  | s, .call k next =>
      let reply := respond s k
      let rest := runIn respond reply.2 (next reply.1)
      (⟨k, reply.1⟩ :: rest.1, rest.2)

theorem runs_runIn (respond : σ → (k : κ) → ρ k × σ) (s : σ) (p : Calls κ ρ α) :
    Runs p (p.runIn respond s).1 (p.runIn respond s).2.1 := by
  induction p generalizing s with
  | done a => exact .done a
  | call k next ih => exact .call _ (ih _ _)

theorem passes_runIn {respond : σ → (k : κ) → ρ k × σ}
    (h : ∀ s k, perform s k (respond s k).1 (respond s k).2) (s : σ) (p : Calls κ ρ α) :
    Passes perform Undisturbed s (p.runIn respond s).1 (p.runIn respond s).2.2 := by
  induction p generalizing s with
  | done a => exact .done s
  | call k next ih => exact .step rfl (h s k) (ih _ _)

end Calls

end SecPlatform
