import Mathlib.Data.List.Induction
import Mathlib.Data.List.Nodup

/-!
# Runs of a transition system

A run is a list of events, each of which takes a step. What holds of the empty run and is kept by
every further event holds of every run.
-/

namespace SecPlatform

variable {σ ε : Type}

/-- The run of `events` from a state with `start` leads to a state. -/
inductive Run (step : σ → ε → σ → Prop) (start : σ → Prop) : List ε → σ → Prop
  | nil {s} (h : start s) : Run step start [] s
  | snoc {events s e s'} (h : Run step start events s) (hstep : step s e s') : Run step start (events ++ [e]) s'

namespace Run

variable {step : σ → ε → σ → Prop} {start : σ → Prop}

/-- The rule for invariants that speak of the events so far. -/
theorem invariant {P : List ε → σ → Prop} (hstart : ∀ s, start s → P [] s)
    (hstep : ∀ events s e s', P events s → step s e s' → P (events ++ [e]) s') {events : List ε} {s : σ}
    (h : Run step start events s) : P events s := by
  induction h with
  | nil h => exact hstart _ h
  | snoc _ hs ih => exact hstep _ _ _ _ ih hs

/-- A longer run passes through the state of each shorter one. -/
theorem of_append {events later : List ε} {s : σ} (h : Run step start (events ++ later) s) :
    ∃ s', Run step start events s' := by
  induction later using List.reverseRecOn generalizing s with
  | nil => exact ⟨s, by simpa using h⟩
  | append_singleton later e ih =>
      rw [← List.append_assoc] at h
      generalize hrun : (events ++ later) ++ [e] = run at h
      cases h with
      | nil => simp at hrun
      | snoc h _ =>
          obtain ⟨rfl, -⟩ := List.append_inj' hrun rfl
          exact ih h

/-- The last event of a run is a step from the state of the run before it. -/
theorem of_snoc {events : List ε} {e : ε} {s' : σ} (h : Run step start (events ++ [e]) s') :
    ∃ s, Run step start events s ∧ step s e s' := by
  generalize hrun : events ++ [e] = run at h
  cases h with
  | nil => simp at hrun
  | snoc h hs =>
      obtain ⟨rfl, he⟩ := List.append_inj' hrun rfl
      obtain rfl : e = _ := by simpa using he
      exact ⟨_, h, hs⟩

end Run

/-! ## Events and what came before them -/

/-- Every event of the list stands in a relation to the events before it. -/
def EachAfter (P : List ε → ε → Prop) (events : List ε) : Prop :=
  ∀ before e after, events = before ++ e :: after → P before e

theorem EachAfter.nil {P : List ε → ε → Prop} : EachAfter P [] := by
  intro before e after h
  simp at h

theorem EachAfter.snoc {P : List ε → ε → Prop} {events : List ε} (h : EachAfter P events) {e : ε} (he : P events e) :
    EachAfter P (events ++ [e]) := by
  intro before d after hsplit
  induction after using List.reverseRecOn with
  | nil =>
      obtain ⟨rfl, hlast⟩ := List.append_inj' hsplit rfl
      obtain rfl : e = d := by simpa using hlast
      exact he
  | append_singleton after last =>
      rw [← List.cons_append, ← List.append_assoc] at hsplit
      obtain ⟨rfl, -⟩ := List.append_inj' hsplit rfl
      exact h before d after rfl

theorem EachAfter.of_append {P : List ε → ε → Prop} {events later : List ε} (h : EachAfter P (events ++ later)) :
    EachAfter P events := by
  rintro before e after rfl
  exact h before e (after ++ later) (by simp)

theorem eachAfter_snoc {P : List ε → ε → Prop} {events : List ε} {e : ε} :
    EachAfter P (events ++ [e]) ↔ EachAfter P events ∧ P events e :=
  ⟨fun h => ⟨h.of_append, h events e [] rfl⟩, fun h => h.1.snoc h.2⟩

end SecPlatform

/-!
## One-shot tokens

What the events of a run use up, read off the list of events, against the store that remembers it.
-/

namespace SecPlatform

variable {ε τ : Type} {events : List ε} {e : ε} {f : ε → Option τ} {x : τ}

theorem filterMap_snoc_none (h : f e = none) : (events ++ [e]).filterMap f = events.filterMap f := by
  simp [List.filterMap_append, h]

theorem filterMap_snoc_some (h : f e = some x) : (events ++ [e]).filterMap f = events.filterMap f ++ [x] := by
  simp [List.filterMap_append, h]

/-- The events use each token at most once, and every token they use is remembered. -/
structure SpentOnce (f : ε → Option τ) (events : List ε) (remembered : τ → Prop) : Prop where
  nodup : (events.filterMap f).Nodup
  remembered : ∀ x ∈ events.filterMap f, remembered x

namespace SpentOnce

variable {remembered remembered' : τ → Prop}

theorem nil : SpentOnce f [] remembered := ⟨List.nodup_nil, by simp⟩

/-- An event that uses nothing, while no token is forgotten. -/
theorem frame (h : SpentOnce f events remembered) (hf : f e = none) (hkeep : ∀ x, remembered x → remembered' x) :
    SpentOnce f (events ++ [e]) remembered' := by
  constructor <;> rw [filterMap_snoc_none hf]
  · exact h.nodup
  · exact fun x hx => hkeep x (h.remembered x hx)

/-- An event that uses a token that was not remembered before. -/
theorem spend (h : SpentOnce f events remembered) (hf : f e = some x) (hfresh : ¬ remembered x)
    (hkeep : ∀ x, remembered x → remembered' x) (hnow : remembered' x) : SpentOnce f (events ++ [e]) remembered' := by
  constructor <;> rw [filterMap_snoc_some hf]
  · refine List.nodup_append.mpr ⟨h.nodup, List.nodup_singleton _, ?_⟩
    rintro y hy z hz rfl
    rw [List.mem_singleton.mp hz] at hy
    exact hfresh (h.remembered x hy)
  · intro y hy
    rcases List.mem_append.mp hy with hy | hy
    · exact hkeep y (h.remembered y hy)
    · rw [List.mem_singleton.mp hy]
      exact hnow

end SpentOnce

end SecPlatform
