import Mathlib.Data.List.Basic

/-!
# Programs that call operations

A program is a tree of calls. Each call is answered from outside, by a value or by a throw, so that a statement
about all runs of a program is one about every behaviour of the operations. Programs have a state of their own,
which a throw does not undo.
-/

namespace SecPlatform

universe u

/-- `κ` are the requests, `ρ k` the answers to one. -/
inductive Calls (κ : Type) (ρ : κ → Type) (α : Type) where
  | done (a : α)
  | call (k : κ) (next : ρ k → Calls κ ρ α)

namespace Calls

variable {κ : Type} {ρ : κ → Type} {α β : Type}

def bind (f : α → Calls κ ρ β) : Calls κ ρ α → Calls κ ρ β
  | .done a => f a
  | .call k next => .call k fun answer => (next answer).bind f

instance : Monad (Calls κ ρ) where
  pure := .done
  bind p f := p.bind f

protected theorem bind_done (p : Calls κ ρ α) : p.bind .done = p := by
  induction p with
  | done => rfl
  | call k next ih => exact congrArg (Calls.call k) (funext ih)

protected theorem bind_assoc {γ : Type} (p : Calls κ ρ α) (f : α → Calls κ ρ β) (g : β → Calls κ ρ γ) :
    (p.bind f).bind g = p.bind fun a => (f a).bind g := by
  induction p with
  | done => rfl
  | call k next ih => exact congrArg (Calls.call k) (funext ih)

instance : LawfulMonad (Calls κ ρ) := LawfulMonad.mk' _ Calls.bind_done (fun _ _ => rfl) Calls.bind_assoc

/-- A request and its answer. -/
structure Event (κ : Type) (ρ : κ → Type) where
  request : κ
  answer : ρ request

/-- The program ends with a value when its calls are answered as the events say. -/
inductive Runs : Calls κ ρ α → List (Event κ ρ) → α → Prop
  | done (a) : Runs (.done a) [] a
  | call {k next events a} (answer : ρ k) (h : Runs (next answer) events a) :
      Runs (.call k next) (⟨k, answer⟩ :: events) a

theorem runs_done {a b : α} {events : List (Event κ ρ)} : Runs (.done a) events b ↔ events = [] ∧ b = a := by
  constructor
  · intro h
    cases h
    exact ⟨rfl, rfl⟩
  · rintro ⟨rfl, rfl⟩
    exact .done _

theorem runs_call {k : κ} {next : ρ k → Calls κ ρ α} {events : List (Event κ ρ)} {a : α} :
    Runs (.call k next) events a ↔ ∃ answer rest, events = ⟨k, answer⟩ :: rest ∧ Runs (next answer) rest a := by
  constructor
  · intro h
    cases h with
    | call answer h => exact ⟨answer, _, rfl, h⟩
  · rintro ⟨answer, rest, rfl, h⟩
    exact .call answer h

theorem runs_bind {p : Calls κ ρ α} {f : α → Calls κ ρ β} {events : List (Event κ ρ)} {b : β} :
    Runs (p >>= f) events b ↔ ∃ before a after, events = before ++ after ∧ Runs p before a ∧ Runs (f a) after b := by
  constructor
  · intro h
    induction p generalizing events with
    | done a => exact ⟨[], a, events, rfl, .done a, h⟩
    | call k next ih =>
        change Runs (.call k fun answer => (next answer).bind f) events b at h
        cases h with
        | call answer h =>
            obtain ⟨before, a, after, rfl, hp, hf⟩ := ih answer h
            exact ⟨_, a, after, rfl, .call answer hp, hf⟩
  · rintro ⟨before, a, after, rfl, hp, hf⟩
    induction hp with
    | done => exact hf
    | call answer _ ih => exact .call answer (ih hf)

/-- The run in which every request is answered by a function. -/
def respond (answers : (k : κ) → ρ k) : Calls κ ρ α → List (Event κ ρ) × α
  | .done a => ([], a)
  | .call k next => (⟨k, answers k⟩ :: ((next (answers k)).respond answers).1, ((next (answers k)).respond answers).2)

theorem runs_respond (answers : (k : κ) → ρ k) (p : Calls κ ρ α) : Runs p (p.respond answers).1 (p.respond answers).2 := by
  induction p with
  | done a => exact .done a
  | call k next ih => exact .call _ (ih _)

end Calls

/-! ## Programs with a state and exceptions -/

/-- A program with a state `σ` whose calls may throw `ε`. -/
abbrev CallM (σ κ : Type) (ρ : κ → Type) (ε α : Type) : Type := ExceptT ε (StateT σ (Calls κ fun k => Except ε (ρ k))) α

namespace CallM

variable {σ κ : Type} {ρ : κ → Type} {ε α β : Type}

/-- One call of an operation. -/
def perform (k : κ) : CallM σ κ ρ ε (ρ k) :=
  ExceptT.mk fun s => .call k fun answer => .done (answer, s)

/-- A computation without calls. -/
def result (x : Except ε α) : CallM σ κ ρ ε α := ExceptT.mk fun s => .done (x, s)

/-- The state at this point. -/
def current : CallM σ κ ρ ε σ := ExceptT.mk fun s => .done (.ok s, s)

/-- A change of the state. -/
def change (f : σ → σ) : CallM σ κ ρ ε Unit := ExceptT.mk fun s => .done (.ok (), f s)

/-- The outcome after a last block. -/
def concluded (outcome : Except ε α) : Except ε Unit → Except ε α
  | .ok () => outcome
  | .error e => .error e

/-- `finally`: the last block runs in any case, and its throw replaces the outcome. -/
def finallyDo (x : CallM σ κ ρ ε α) (last : σ → CallM σ κ ρ ε Unit) : CallM σ κ ρ ε α :=
  ExceptT.mk fun s => (x s : Calls κ _ (Except ε α × σ)).bind fun (outcome, s') =>
    (last s' s' : Calls κ _ (Except ε Unit × σ)).bind fun (ended, s'') =>
      .done (concluded outcome ended, s'')

/-- The program, begun in one state, makes these calls and ends with an outcome in another state. -/
def Ends (x : CallM σ κ ρ ε α) (s : σ) (events : List (Calls.Event κ fun k => Except ε (ρ k))) (outcome : Except ε α)
    (s' : σ) : Prop := Calls.Runs (x s : Calls κ _ (Except ε α × σ)) events (outcome, s')

theorem concluded_ok {first : Except ε α} {ended : Except ε Unit} {a : α} (h : concluded first ended = .ok a) :
    first = .ok a := by
  cases ended with
  | ok => exact h
  | error e => cases h

theorem concluded_error (e : ε) (ended : Except ε Unit) :
    ∃ e', concluded (.error e : Except ε α) ended = .error e' := by
  cases ended with
  | ok => exact ⟨e, rfl⟩
  | error e' => exact ⟨e', rfl⟩

section Rules

variable {s s' : σ} {events : List (Calls.Event κ fun k => Except ε (ρ k))} {outcome : Except ε α}

theorem ends_result {x : Except ε α} :
    Ends (result x : CallM σ κ ρ ε α) s events outcome s' ↔ events = [] ∧ outcome = x ∧ s' = s := by
  rw [Ends, result, ExceptT.mk, Calls.runs_done, Prod.mk.injEq]

theorem ends_pure {a : α} :
    Ends (pure a : CallM σ κ ρ ε α) s events outcome s' ↔ events = [] ∧ outcome = .ok a ∧ s' = s :=
  Iff.trans Calls.runs_done (by rw [Prod.mk.injEq])

theorem ends_throw {e : ε} :
    Ends (throw e : CallM σ κ ρ ε α) s events outcome s' ↔ events = [] ∧ outcome = .error e ∧ s' = s :=
  Iff.trans Calls.runs_done (by rw [Prod.mk.injEq])

theorem ends_change {f : σ → σ} {ended : Except ε Unit} :
    Ends (change f : CallM σ κ ρ ε Unit) s events ended s' ↔ events = [] ∧ ended = .ok () ∧ s' = f s :=
  Iff.trans Calls.runs_done (by rw [Prod.mk.injEq])

theorem ends_current {ended : Except ε σ} :
    Ends (current : CallM σ κ ρ ε σ) s events ended s' ↔ events = [] ∧ ended = .ok s ∧ s' = s :=
  Iff.trans Calls.runs_done (by rw [Prod.mk.injEq])

theorem ends_perform {k : κ} {answer : Except ε (ρ k)} :
    Ends (perform k : CallM σ κ ρ ε (ρ k)) s events answer s' ↔ events = [⟨k, answer⟩] ∧ s' = s := by
  refine Iff.trans Calls.runs_call ?_
  constructor
  · rintro ⟨given, rest, rfl, h⟩
    obtain ⟨rfl, hdone⟩ := Calls.runs_done.mp h
    obtain ⟨rfl, rfl⟩ := Prod.mk.inj hdone
    exact ⟨rfl, rfl⟩
  · rintro ⟨rfl, rfl⟩
    exact ⟨answer, [], rfl, .done _⟩

/-- A sequence goes on with the value of its first part, and stops at a throw. -/
theorem ends_bind {x : CallM σ κ ρ ε β} {f : β → CallM σ κ ρ ε α} :
    Ends (x >>= f) s events outcome s' ↔
      (∃ e, Ends x s events (.error e) s' ∧ outcome = .error e) ∨
      ∃ before b s₁ after, events = before ++ after ∧ Ends x s before (.ok b) s₁ ∧ Ends (f b) s₁ after outcome s' := by
  refine Iff.trans Calls.runs_bind ?_
  constructor
  · rintro ⟨before, ⟨first, s₁⟩, after, rfl, hx, hf⟩
    cases first with
    | error e =>
        obtain ⟨rfl, hdone⟩ := Calls.runs_done.mp hf
        obtain ⟨rfl, rfl⟩ := Prod.mk.inj hdone
        exact .inl ⟨e, by rwa [List.append_nil], rfl⟩
    | ok b => exact .inr ⟨before, b, s₁, after, rfl, hx, hf⟩
  · rintro (⟨e, hx, rfl⟩ | ⟨before, b, s₁, after, rfl, hx, hf⟩)
    · exact ⟨events, _, [], (List.append_nil _).symm, hx, .done _⟩
    · exact ⟨before, _, after, rfl, hx, hf⟩

theorem ends_change_bind {f : σ → σ} {next : Unit → CallM σ κ ρ ε α} :
    Ends (change f >>= next) s events outcome s' ↔ Ends (next ()) (f s) events outcome s' := Iff.rfl

theorem ends_current_bind {next : σ → CallM σ κ ρ ε α} :
    Ends (current >>= next) s events outcome s' ↔ Ends (next s) s events outcome s' := Iff.rfl

theorem ends_result_bind {x : Except ε β} {next : β → CallM σ κ ρ ε α} :
    Ends (result x >>= next) s events outcome s' ↔
      (∃ e, x = .error e ∧ events = [] ∧ outcome = .error e ∧ s' = s) ∨
      ∃ b, x = .ok b ∧ Ends (next b) s events outcome s' := by
  cases x with
  | error e =>
      refine Iff.trans (ends_throw (e := e)) ?_
      simp
  | ok b => exact ⟨fun h => .inr ⟨b, rfl, h⟩, fun h => by rcases h with ⟨_, h, _⟩ | ⟨_, h, h'⟩ <;> cases h; exact h'⟩

theorem ends_perform_bind {k : κ} {next : ρ k → CallM σ κ ρ ε α} :
    Ends (perform k >>= next) s events outcome s' ↔
      (∃ e, events = [⟨k, .error e⟩] ∧ outcome = .error e ∧ s' = s) ∨
      ∃ b after, events = ⟨k, .ok b⟩ :: after ∧ Ends (next b) s after outcome s' := by
  rw [ends_bind]
  constructor
  · rintro (⟨e, h, rfl⟩ | ⟨before, b, s₁, after, rfl, h, hnext⟩)
    · obtain ⟨rfl, rfl⟩ := ends_perform.mp h
      exact .inl ⟨e, rfl, rfl, rfl⟩
    · obtain ⟨rfl, rfl⟩ := ends_perform.mp h
      exact .inr ⟨b, after, rfl, hnext⟩
  · rintro (⟨e, rfl, rfl, rfl⟩ | ⟨b, after, rfl, hnext⟩)
    · exact .inl ⟨e, ends_perform.mpr ⟨rfl, rfl⟩, rfl⟩
    · exact .inr ⟨_, b, s, after, rfl, ends_perform.mpr ⟨rfl, rfl⟩, hnext⟩

theorem ends_bind_ok {x : CallM σ κ ρ ε β} {f : β → CallM σ κ ρ ε α} {a : α} :
    Ends (x >>= f) s events (.ok a) s' ↔
      ∃ before b s₁ after, events = before ++ after ∧ Ends x s before (.ok b) s₁ ∧ Ends (f b) s₁ after (.ok a) s' := by
  rw [ends_bind]
  exact ⟨fun h => h.resolve_left nofun, .inr⟩

theorem ends_map_ok {x : CallM σ κ ρ ε β} {f : β → α} {a : α} :
    Ends (f <$> x) s events (.ok a) s' ↔ ∃ b, Ends x s events (.ok b) s' ∧ a = f b := by
  rw [← bind_pure_comp, ends_bind_ok]
  constructor
  · rintro ⟨before, b, s₁, after, rfl, hx, h⟩
    obtain ⟨rfl, ha, rfl⟩ := ends_pure.mp h
    exact ⟨b, by rwa [List.append_nil], Except.ok.inj ha⟩
  · rintro ⟨b, hx, rfl⟩
    exact ⟨events, b, s', [], (List.append_nil _).symm, hx, ends_pure.mpr ⟨rfl, rfl, rfl⟩⟩

theorem ends_map_error {x : CallM σ κ ρ ε β} {f : β → α} {e : ε} :
    Ends (f <$> x) s events (.error e) s' ↔ Ends x s events (.error e) s' := by
  rw [← bind_pure_comp, ends_bind]
  constructor
  · rintro (⟨e', hx, he⟩ | ⟨before, b, s₁, after, -, -, h⟩)
    · rwa [Except.error.inj he]
    · obtain ⟨-, h, -⟩ := ends_pure.mp h
      cases h
  · exact fun hx => .inl ⟨e, hx, rfl⟩

theorem ends_tryCatch {x : CallM σ κ ρ ε α} {handler : ε → CallM σ κ ρ ε α} :
    Ends (tryCatch x handler) s events outcome s' ↔
      (∃ a, Ends x s events (.ok a) s' ∧ outcome = .ok a) ∨
      ∃ before e s₁ after, events = before ++ after ∧ Ends x s before (.error e) s₁ ∧
        Ends (handler e) s₁ after outcome s' := by
  refine Iff.trans Calls.runs_bind ?_
  constructor
  · rintro ⟨before, ⟨first, s₁⟩, after, rfl, hx, hf⟩
    cases first with
    | ok a =>
        obtain ⟨rfl, hdone⟩ := Calls.runs_done.mp hf
        obtain ⟨rfl, rfl⟩ := Prod.mk.inj hdone
        exact .inl ⟨a, by rwa [List.append_nil], rfl⟩
    | error e => exact .inr ⟨before, e, s₁, after, rfl, hx, hf⟩
  · rintro (⟨a, hx, rfl⟩ | ⟨before, e, s₁, after, rfl, hx, hf⟩)
    · exact ⟨events, _, [], (List.append_nil _).symm, hx, .done _⟩
    · exact ⟨before, _, after, rfl, hx, hf⟩

theorem ends_finallyDo {x : CallM σ κ ρ ε α} {last : σ → CallM σ κ ρ ε Unit} :
    Ends (finallyDo x last) s events outcome s' ↔ ∃ before first s₁ after ended, events = before ++ after ∧
      Ends x s before first s₁ ∧ Ends (last s₁) s₁ after ended s' ∧
        outcome = concluded first ended := by
  refine Iff.trans Calls.runs_bind ?_
  constructor
  · rintro ⟨before, ⟨first, s₁⟩, after, rfl, hx, hlast⟩
    obtain ⟨after', ⟨ended, s₂⟩, rest, rfl, hlast, hdone⟩ := Calls.runs_bind.mp hlast
    simp only [Calls.runs_done, Prod.mk.injEq] at hdone
    obtain ⟨rfl, houtcome, rfl⟩ := hdone
    exact ⟨before, first, s₁, after', ended, by rw [List.append_nil], hx, hlast, houtcome⟩
  · rintro ⟨before, first, s₁, after, ended, rfl, hx, hlast, rfl⟩
    exact ⟨before, (first, s₁), after, rfl, hx,
      Calls.runs_bind.mpr ⟨after, (ended, s'), [], (List.append_nil _).symm, hlast, .done _⟩⟩

end Rules

/-! ## The calls a program can make -/

/-- The program only makes calls of a kind, and keeps the state. -/
def Within (S : κ → Prop) (x : CallM σ κ ρ ε α) : Prop :=
  ∀ s events outcome s', Ends x s events outcome s' → s' = s ∧ ∀ event ∈ events, S event.request

section Within

variable {S : κ → Prop}

theorem Within.mono {T : κ → Prop} {x : CallM σ κ ρ ε α} (h : Within S x) (hT : ∀ k, S k → T k) : Within T x := by
  intro s events outcome s' hends
  obtain ⟨hs, hevents⟩ := h _ _ _ _ hends
  exact ⟨hs, fun event hevent => hT _ (hevents event hevent)⟩

theorem within_result {x : Except ε α} : Within S (result x : CallM σ κ ρ ε α) := by
  intro s events outcome s' h
  obtain ⟨rfl, -, rfl⟩ := ends_result.mp h
  exact ⟨rfl, nofun⟩

theorem within_pure {a : α} : Within S (pure a : CallM σ κ ρ ε α) := by
  intro s events outcome s' h
  obtain ⟨rfl, -, rfl⟩ := ends_pure.mp h
  exact ⟨rfl, nofun⟩

theorem within_throw {e : ε} : Within S (throw e : CallM σ κ ρ ε α) := by
  intro s events outcome s' h
  obtain ⟨rfl, -, rfl⟩ := ends_throw.mp h
  exact ⟨rfl, nofun⟩

theorem within_perform {k : κ} (h : S k) : Within S (perform k : CallM σ κ ρ ε (ρ k)) := by
  intro s events outcome s' hends
  obtain ⟨rfl, rfl⟩ := ends_perform.mp hends
  exact ⟨rfl, by simpa using h⟩

/-- A sequence, where the second part may rely on the value of the first. -/
theorem within_bind_of_ends {x : CallM σ κ ρ ε β} {f : β → CallM σ κ ρ ε α} (hx : Within S x)
    (hf : ∀ b s events s', Ends x s events (.ok b) s' → Within S (f b)) : Within S (x >>= f) := by
  intro s events outcome s' h
  rcases ends_bind.mp h with ⟨e, h, -⟩ | ⟨before, b, s₁, after, rfl, h, h'⟩
  · exact hx _ _ _ _ h
  · obtain ⟨rfl, hafter⟩ := hf b _ _ _ h _ _ _ _ h'
    obtain ⟨rfl, hbefore⟩ := hx _ _ _ _ h
    exact ⟨rfl, List.forall_mem_append.mpr ⟨hbefore, hafter⟩⟩

theorem within_bind {x : CallM σ κ ρ ε β} {f : β → CallM σ κ ρ ε α} (hx : Within S x) (hf : ∀ b, Within S (f b)) :
    Within S (x >>= f) := within_bind_of_ends hx fun b _ _ _ _ => hf b

theorem within_map {x : CallM σ κ ρ ε β} {f : β → α} (hx : Within S x) : Within S (f <$> x) := by
  rw [← bind_pure_comp]
  exact within_bind hx fun _ => within_pure

theorem within_tryCatch {x : CallM σ κ ρ ε α} {handler : ε → CallM σ κ ρ ε α} (hx : Within S x)
    (hf : ∀ e, Within S (handler e)) : Within S (tryCatch x handler) := by
  intro s events outcome s' h
  rcases ends_tryCatch.mp h with ⟨a, h, -⟩ | ⟨before, e, s₁, after, rfl, h, h'⟩
  · exact hx _ _ _ _ h
  · obtain ⟨rfl, hbefore⟩ := hx _ _ _ _ h
    obtain ⟨rfl, hafter⟩ := hf e _ _ _ _ h'
    exact ⟨rfl, List.forall_mem_append.mpr ⟨hbefore, hafter⟩⟩

theorem within_forM {f : β → CallM σ κ ρ ε Unit} {xs : List β} (h : ∀ x, Within S (f x)) : Within S (xs.forM f) := by
  induction xs with
  | nil => exact within_pure
  | cons x xs ih => exact within_bind (h x) fun _ => ih

theorem within_mapM {f : β → CallM σ κ ρ ε α} {xs : List β} (h : ∀ x, Within S (f x)) : Within S (xs.mapM f) := by
  induction xs with
  | nil => exact within_pure
  | cons x xs ih =>
      rw [List.mapM_cons]
      exact within_bind (h x) fun _ => within_bind ih fun _ => within_pure

end Within

end CallM

end SecPlatform
