import SecPlatform.Library.Calls

/-!
# Interleaved programs on one shared state

Any number of programs work on one shared state. A request is carried out atomically, and between two
requests of one program every other program may move; a program that never moves again has stopped. A
program is proved against what the others may do between its requests, the relation it relies on, and
guarantees every other program its own; then every reachable system is as the proofs say.
-/

namespace SecPlatform

variable {σ ι κ : Type} {ρ : κ → Type} {ε α β : Type}

/-! ## Programs that throw -/

/-- A program that ends with a value or a throw. -/
abbrev Procedure (κ : Type) (ρ : κ → Type) (ε α : Type) : Type := ExceptT ε (Calls κ ρ) α

namespace Procedure

/-- One request. -/
def ask (k : κ) : Procedure κ ρ ε (ρ k) := ExceptT.mk (.call k fun answer => .done (.ok answer))

/-- A computation without requests. -/
def result (x : Except ε α) : Procedure κ ρ ε α := ExceptT.mk (.done x)

/-- `try { return x } finally { last }`: the last block runs in any case, and its throw replaces the outcome. -/
def finallyDo (x : Procedure κ ρ ε α) (last : Procedure κ ρ ε Unit) : Procedure κ ρ ε α :=
  ExceptT.mk (Calls.bind (fun outcome => Calls.bind (fun ended => .done (CallM.concluded outcome ended)) last.run) x.run)

/-- `try { return x } catch { return y }`. -/
def orElse (x : Procedure κ ρ ε α) (handler : ε → Procedure κ ρ ε α) : Procedure κ ρ ε α :=
  ExceptT.mk (Calls.bind (fun outcome => match outcome with
    | .ok a => .done (.ok a)
    | .error e => (handler e).run) x.run)

end Procedure

/-! ## Systems -/

/-- A program in flight or ended, with its input and the requests it has made so far. -/
structure Process (ι κ : Type) (ρ : κ → Type) (α : Type) where
  input : ι
  history : List (Calls.Event κ ρ)
  program : Calls κ ρ α

/-- The shared state and every program begun so far, in the order in which they were begun. -/
structure Processes (σ ι κ : Type) (ρ : κ → Type) (α : Type) where
  state : σ
  all : List (Process ι κ ρ α)

/-- What a request of the program at a place does to the shared state. -/
abbrev Performs (σ κ : Type) (ρ : κ → Type) : Type := Nat → σ → (k : κ) → ρ k → σ → Prop

/-- What must hold of the state, the input and the history of a program before a request. -/
abbrev Permission (σ ι κ : Type) (ρ : κ → Type) : Type := σ → ι → List (Calls.Event κ ρ) → κ → Prop

namespace Processes

/-- One atomic step: a program is begun, or makes its next request. -/
inductive Step (program : ι → Calls κ ρ α) (perform : Performs σ κ ρ) (permitted : Permission σ ι κ ρ) :
    Processes σ ι κ ρ α → Processes σ ι κ ρ α → Prop
  | begin {s : Processes σ ι κ ρ α} (input) :
      Step program perform permitted s ⟨s.state, s.all ++ [⟨input, [], program input⟩]⟩
  | request {s : Processes σ ι κ ρ α} {i p k next} (answer : ρ k) (state') (hi : s.all[i]? = some p)
      (hp : p.program = .call k next) (hpermitted : permitted s.state p.input p.history k)
      (hperform : perform i s.state k answer state') :
      Step program perform permitted s ⟨state', s.all.set i ⟨p.input, p.history ++ [⟨k, answer⟩], next answer⟩⟩

/-- The systems of the runs whose requests are all permitted. -/
inductive Reachable (program : ι → Calls κ ρ α) (perform : Performs σ κ ρ) (initial : σ → Prop)
    (permitted : Permission σ ι κ ρ) : Processes σ ι κ ρ α → Prop
  | start {state} (h : initial state) : Reachable program perform initial permitted ⟨state, []⟩
  | step {s s'} (h : Reachable program perform initial permitted s) (hstep : Step program perform permitted s s') :
      Reachable program perform initial permitted s'

variable {program : ι → Calls κ ρ α} {perform : Performs σ κ ρ} {initial : σ → Prop}
  {permitted permitted' : Permission σ ι κ ρ} {s : Processes σ ι κ ρ α}

/-- Fewer restrictions on the requests, more runs. -/
theorem Reachable.mono
    (hmono : ∀ state input history k, permitted state input history k → permitted' state input history k)
    (h : Reachable program perform initial permitted s) : Reachable program perform initial permitted' s := by
  induction h with
  | start h => exact .start h
  | step _ hstep ih =>
      refine .step ih ?_
      cases hstep with
      | begin input => exact .begin input
      | request answer state' hi hp hpermitted hperform =>
          exact .request answer state' hi hp (hmono _ _ _ _ hpermitted) hperform

/-! ### Schedules that run -/

/-- A move of a schedule: a new program, or the next request of the program at a place. -/
inductive Move (ι : Type) where
  | begin (input : ι)
  | request (i : Nat)

/-- One move, where requests are answered by a function; a move that is not allowed does nothing. -/
def move (program : ι → Calls κ ρ α) (respond : Nat → σ → (k : κ) → ρ k × σ)
    (allows : σ → ι → List (Calls.Event κ ρ) → κ → Bool) (s : Processes σ ι κ ρ α) : Move ι → Processes σ ι κ ρ α
  | .begin input => ⟨s.state, s.all ++ [⟨input, [], program input⟩]⟩
  | .request i =>
      match s.all[i]? with
      | some ⟨input, history, .call k next⟩ =>
          if allows s.state input history k then
            let reply := respond i s.state k
            ⟨reply.2, s.all.set i ⟨input, history ++ [⟨k, reply.1⟩], next reply.1⟩⟩
          else s
      | _ => s

/-- What a schedule leads to can be reached. -/
theorem reachable_moves {respond : Nat → σ → (k : κ) → ρ k × σ}
    {allows : σ → ι → List (Calls.Event κ ρ) → κ → Bool}
    (hrespond : ∀ i state k, perform i state k (respond i state k).1 (respond i state k).2)
    (hallows : ∀ state input history k, allows state input history k → permitted state input history k)
    (h : Reachable program perform initial permitted s) (moves : List (Move ι)) :
    Reachable program perform initial permitted (moves.foldl (move program respond allows) s) := by
  induction moves generalizing s with
  | nil => exact h
  | cons m moves ih =>
      rw [List.foldl_cons]
      apply ih
      cases m with
      | begin input => exact .step h (.begin input)
      | request i =>
          rw [move]
          split
          · rename_i input history k next hi
            split
            · rename_i hallowed
              exact .step h (.request _ _ hi rfl (hallows _ _ _ _ hallowed) (hrespond i s.state k))
            · exact h
          · exact h

end Processes

/-! ## One program alone -/

/-- The program at a place, while no other one moves, leads from a state to a state and ends with a value. -/
inductive Alone (perform : Performs σ κ ρ) (i : Nat) : σ → Calls κ ρ α → σ → α → Prop
  | done (s a) : Alone perform i s (.done a) s a
  | call {s k next s' s'' a} (answer : ρ k) (hperform : perform i s k answer s')
      (h : Alone perform i s' (next answer) s'' a) : Alone perform i s (.call k next) s'' a

section Alone

variable {perform : Performs σ κ ρ} {i : Nat} {s s' : σ}

theorem alone_done {a b : α} : Alone perform i s (.done a) s' b ↔ s' = s ∧ b = a := by
  constructor
  · intro h
    cases h
    exact ⟨rfl, rfl⟩
  · rintro ⟨rfl, rfl⟩
    exact .done _ _

theorem alone_call {k : κ} {next : ρ k → Calls κ ρ α} {a : α} : Alone perform i s (.call k next) s' a ↔
    ∃ answer s₁, perform i s k answer s₁ ∧ Alone perform i s₁ (next answer) s' a := by
  constructor
  · intro h
    cases h with
    | call answer hperform h => exact ⟨answer, _, hperform, h⟩
  · rintro ⟨answer, s₁, hperform, h⟩
    exact .call answer hperform h

theorem alone_bind {p : Calls κ ρ α} {f : α → Calls κ ρ β} {b : β} : Alone perform i s (p.bind f) s' b ↔
    ∃ a s₁, Alone perform i s p s₁ a ∧ Alone perform i s₁ (f a) s' b := by
  constructor
  · intro h
    induction p generalizing s with
    | done a => exact ⟨a, s, .done _ _, h⟩
    | call k next ih =>
        obtain ⟨answer, s₁, hperform, h⟩ := alone_call.mp h
        obtain ⟨a, s₂, hp, hf⟩ := ih answer h
        exact ⟨a, s₂, .call answer hperform hp, hf⟩
  · rintro ⟨a, s₁, hp, hf⟩
    induction hp with
    | done => exact hf
    | call answer hperform _ ih => exact .call answer hperform (ih hf)

/-- A sequence that succeeds goes through the value of its first part. -/
theorem alone_bind_ok {x : Procedure κ ρ ε α} {f : α → Procedure κ ρ ε β} {b : β} :
    Alone perform i s (x >>= f : Procedure κ ρ ε β) s' (.ok b) ↔
      ∃ a s₁, Alone perform i s x s₁ (.ok a) ∧ Alone perform i s₁ (f a) s' (.ok b) := by
  refine Iff.trans alone_bind ?_
  constructor
  · rintro ⟨outcome, s₁, hx, hf⟩
    cases outcome with
    | ok a => exact ⟨a, s₁, hx, hf⟩
    | error e =>
        obtain ⟨-, h⟩ := alone_done.mp hf
        cases h
  · rintro ⟨a, s₁, hx, hf⟩
    exact ⟨.ok a, s₁, hx, hf⟩

theorem alone_result {x outcome : Except ε α} :
    Alone perform i s (Procedure.result x : Procedure κ ρ ε α) s' outcome ↔ s' = s ∧ outcome = x := alone_done

theorem alone_pure {a : α} {outcome : Except ε α} :
    Alone perform i s (pure a : Procedure κ ρ ε α) s' outcome ↔ s' = s ∧ outcome = .ok a := alone_done

theorem alone_ask {k : κ} {outcome : Except ε (ρ k)} :
    Alone perform i s (Procedure.ask k : Procedure κ ρ ε (ρ k)) s' outcome ↔
      ∃ answer, outcome = .ok answer ∧ perform i s k answer s' := by
  refine Iff.trans alone_call ?_
  constructor
  · rintro ⟨answer, s₁, hperform, h⟩
    obtain ⟨rfl, rfl⟩ := alone_done.mp h
    exact ⟨answer, rfl, hperform⟩
  · rintro ⟨answer, rfl, hperform⟩
    exact ⟨answer, s', hperform, .done _ _⟩

/-- The last block ends well behind a part that succeeds. -/
theorem alone_finallyDo {x : Procedure κ ρ ε α} {last : Procedure κ ρ ε Unit} {s₁ : σ} {a : α}
    (hx : Alone perform i s x s₁ (.ok a)) (hlast : Alone perform i s₁ last s' (.ok ())) :
    Alone perform i s (x.finallyDo last) s' (.ok a) :=
  alone_bind.mpr ⟨.ok a, s₁, hx, alone_bind.mpr ⟨.ok (), s', hlast, .done _ _⟩⟩

end Alone

namespace Processes

variable {program : ι → Calls κ ρ α} {perform : Performs σ κ ρ} {initial : σ → Prop} {s : Processes σ ι κ ρ α}

/-- A program in flight may run to its end alone. -/
theorem reachable_finish (h : Reachable program perform initial (fun _ _ _ _ => True) s) {i : Nat}
    {p : Process ι κ ρ α} (hi : s.all[i]? = some p) {state' : σ} {a : α}
    (halone : Alone perform i s.state p.program state' a) :
    ∃ history, Reachable program perform initial (fun _ _ _ _ => True)
      ⟨state', s.all.set i ⟨p.input, history, .done a⟩⟩ := by
  obtain ⟨state, all⟩ := s
  obtain ⟨input, history, q⟩ := p
  dsimp only at hi halone ⊢
  induction halone generalizing all history with
  | done state a =>
      obtain ⟨hlt, hp⟩ := List.getElem?_eq_some_iff.mp hi
      refine ⟨history, ?_⟩
      rwa [← hp, List.set_getElem_self hlt]
  | @call state k next state₁ state' a answer hperform _ ih =>
      have hstep := h.step (.request answer state₁ hi rfl trivial hperform)
      have hlt : i < all.length := (List.getElem?_eq_some_iff.mp hi).1
      obtain ⟨history', h'⟩ := ih _ hstep _ (List.getElem?_set_self hlt)
      exact ⟨history', by rwa [List.set_set] at h'⟩

/-- A program that is begun may run to its end alone. -/
theorem reachable_alone (h : Reachable program perform initial (fun _ _ _ _ => True) s) {input : ι} {state' : σ} {a : α}
    (halone : Alone perform s.all.length s.state (program input) state' a) :
    ∃ history, Reachable program perform initial (fun _ _ _ _ => True)
      ⟨state', s.all ++ [⟨input, history, .done a⟩]⟩ := by
  obtain ⟨history, h'⟩ := reachable_finish (h.step (.begin input)) (i := s.all.length) (p := ⟨input, [], program input⟩)
    (by simp) halone
  exact ⟨history, by simpa using h'⟩

end Processes

/-! ## Specifications -/

/-- What the requests do, which of them are permitted, what must hold before each of them and of every state, and what a
program at a place may assume of the steps of the others. -/
structure Reliance (σ ι κ : Type) (ρ : κ → Type) where
  perform : Performs σ κ ρ
  permitted : Permission σ ι κ ρ
  asserted : Permission σ ι κ ρ
  invariant : σ → Prop
  rely : Nat → σ → σ → Prop
  refl : ∀ i s, rely i s s
  trans : ∀ i a b c, rely i a b → rely i b c → rely i a c

namespace Reliance

variable (r : Reliance σ ι κ ρ)

/-- What a program must show of a request that is answered and leads to a state. -/
structure Allows (i : Nat) (s s' : σ) : Prop where
  invariant : r.invariant s'
  others : ∀ j, j ≠ i → r.rely j s s'

/-- From a state on, the program keeps the invariant and what the others rely on, makes no request without what it asserts,
and ends where `Q` holds. -/
def Keeps (i : Nat) (input : ι) (Q : List (Calls.Event κ ρ) → σ → α → Prop) :
    List (Calls.Event κ ρ) → σ → Calls κ ρ α → Prop
  | history, s, .done a => Q history s a
  | history, s, .call k next => ∀ s', r.invariant s' → r.rely i s s' → r.permitted s' input history k →
      r.asserted s' input history k ∧ ∀ answer s'', r.perform i s' k answer s'' →
        r.Allows i s' s'' ∧ Keeps i input Q (history ++ [⟨k, answer⟩]) s'' (next answer)

section Rules

variable {r} {i : Nat} {input : ι} {history : List (Calls.Event κ ρ)} {s : σ}

/-- A request that leaves the state as it is. -/
theorem allows_same (h : r.invariant s) : r.Allows i s s := ⟨h, fun j _ => r.refl j s⟩

theorem keeps_done {Q : List (Calls.Event κ ρ) → σ → α → Prop} {a : α} (h : Q history s a) :
    r.Keeps i input Q history s (.done a) := h

theorem Keeps.mono {Q Q' : List (Calls.Event κ ρ) → σ → α → Prop} {p : Calls κ ρ α}
    (h : r.Keeps i input Q history s p) (hQ : ∀ history s a, Q history s a → Q' history s a) :
    r.Keeps i input Q' history s p := by
  induction p generalizing history s with
  | done a => exact hQ _ _ _ h
  | call k next ih =>
      intro s' hs' hrely hpermitted
      obtain ⟨hasserted, hnext⟩ := h s' hs' hrely hpermitted
      exact ⟨hasserted, fun answer s'' hperform => (hnext answer s'' hperform).imp id (ih answer)⟩

/-- What holds of a state holds after the others have moved. -/
theorem Keeps.rely {Q : List (Calls.Event κ ρ) → σ → α → Prop} {k : κ} {next : ρ k → Calls κ ρ α} {s' : σ}
    (h : r.Keeps i input Q history s (.call k next)) (hrely : r.rely i s s') :
    r.Keeps i input Q history s' (.call k next) :=
  fun s'' hs'' hrely' => h s'' hs'' (r.trans _ _ _ _ hrely hrely')

/-- A sequence goes on where its first part ends. -/
theorem keeps_bind {Q : List (Calls.Event κ ρ) → σ → β → Prop} {p : Calls κ ρ α} {f : α → Calls κ ρ β}
    (h : r.Keeps i input (fun history s a => r.Keeps i input Q history s (f a)) history s p) :
    r.Keeps i input Q history s (p.bind f) := by
  induction p generalizing history s with
  | done a => exact h
  | call k next ih =>
      intro s' hs' hrely hpermitted
      obtain ⟨hasserted, hnext⟩ := h s' hs' hrely hpermitted
      exact ⟨hasserted, fun answer s'' hperform => (hnext answer s'' hperform).imp id (ih answer)⟩

/-- A sequence that throws stops at the throw. -/
theorem keeps_procedure_bind {Q : List (Calls.Event κ ρ) → σ → Except ε β → Prop} {p : Procedure κ ρ ε α}
    {f : α → Procedure κ ρ ε β}
    (h : r.Keeps i input (fun history s outcome => match outcome with
      | .ok a => r.Keeps i input Q history s (f a)
      | .error e => Q history s (.error e)) history s p) :
    r.Keeps i input Q history s (p >>= f : Procedure κ ρ ε β) := by
  refine keeps_bind (h.mono ?_)
  intro history s outcome h
  cases outcome with
  | ok a => exact h
  | error e => exact keeps_done h

theorem keeps_result {Q : List (Calls.Event κ ρ) → σ → Except ε α → Prop} {x : Except ε α} (h : Q history s x) :
    r.Keeps i input Q history s (Procedure.result x : Procedure κ ρ ε α) := h

theorem keeps_result_bind {Q : List (Calls.Event κ ρ) → σ → Except ε β → Prop} {x : Except ε α}
    {f : α → Procedure κ ρ ε β} (h : ∀ a, x = .ok a → r.Keeps i input Q history s (f a))
    (herror : ∀ e, x = .error e → Q history s (.error e)) :
    r.Keeps i input Q history s (Procedure.result x >>= f : Procedure κ ρ ε β) := by
  refine keeps_procedure_bind (keeps_result ?_)
  cases hx : x with
  | ok a => exact h a hx
  | error e => exact herror e hx

theorem keeps_pure {Q : List (Calls.Event κ ρ) → σ → Except ε α → Prop} {a : α} (h : Q history s (.ok a)) :
    r.Keeps i input Q history s (pure a : Procedure κ ρ ε α) := h

/-- One request, from every state that the others may have made of the one known. -/
theorem keeps_ask {k : κ} {Q : List (Calls.Event κ ρ) → σ → Except ε (ρ k) → Prop}
    (h : ∀ s', r.invariant s' → r.rely i s s' → r.permitted s' input history k →
      r.asserted s' input history k ∧ ∀ answer s'', r.perform i s' k answer s'' →
        r.Allows i s' s'' ∧ Q (history ++ [⟨k, answer⟩]) s'' (.ok answer)) :
    r.Keeps i input Q history s (Procedure.ask k : Procedure κ ρ ε (ρ k)) := h

/-- A request that asks nothing of the state and leaves it alone. -/
theorem keeps_look {k : κ} {Q : List (Calls.Event κ ρ) → σ → Except ε (ρ k) → Prop}
    (hasserted : ∀ s, r.asserted s input history k) (hsame : ∀ s answer s', r.perform i s k answer s' → s' = s)
    (h : ∀ s', r.invariant s' → r.rely i s s' → r.permitted s' input history k → ∀ answer, r.perform i s' k answer s' →
      Q (history ++ [⟨k, answer⟩]) s' (.ok answer)) :
    r.Keeps i input Q history s (Procedure.ask k : Procedure κ ρ ε (ρ k)) := by
  refine keeps_ask fun s' hs' hrely hpermitted => ⟨hasserted s', fun answer s'' hperform => ?_⟩
  obtain rfl := hsame _ _ _ hperform
  exact ⟨allows_same hs', h _ hs' hrely hpermitted answer hperform⟩

theorem keeps_finallyDo {Q : List (Calls.Event κ ρ) → σ → Except ε α → Prop} {x : Procedure κ ρ ε α}
    {last : Procedure κ ρ ε Unit}
    (h : r.Keeps i input (fun history s outcome => r.Keeps i input
      (fun history s ended => Q history s (CallM.concluded outcome ended)) history s last) history s x) :
    r.Keeps i input Q history s (x.finallyDo last) := by
  refine keeps_bind (h.mono ?_)
  intro history s outcome h
  exact keeps_bind (h.mono fun _ _ _ h => keeps_done h)

theorem keeps_orElse {Q : List (Calls.Event κ ρ) → σ → Except ε α → Prop} {x : Procedure κ ρ ε α}
    {handler : ε → Procedure κ ρ ε α}
    (h : r.Keeps i input (fun history s outcome => match outcome with
      | .ok a => Q history s (.ok a)
      | .error e => r.Keeps i input Q history s (handler e)) history s x) :
    r.Keeps i input Q history s (x.orElse handler) := by
  refine keeps_bind (h.mono ?_)
  intro history s outcome h
  cases outcome with
  | ok a => exact keeps_done h
  | error e => exact h

end Rules

/-! ## Every reachable system -/

/-- What a program has established: it keeps its specification from some state on, and since then only the others
moved. -/
def Established (post : Nat → ι → List (Calls.Event κ ρ) → σ → α → Prop) (i : Nat) (p : Process ι κ ρ α) (s : σ) : Prop :=
  ∃ s₀, r.invariant s₀ ∧ r.rely i s₀ s ∧ r.Keeps i p.input (post i p.input) p.history s₀ p.program

variable {r} {program : ι → Calls κ ρ α} {initial : σ → Prop}
  {post : Nat → ι → List (Calls.Event κ ρ) → σ → α → Prop}

/-- Programs that keep their specifications alone keep them in every interleaving. -/
theorem reachable_established (hinitial : ∀ s, initial s → r.invariant s)
    (hprogram : ∀ i input s, r.invariant s → r.Keeps i input (post i input) [] s (program input))
    {s : Processes σ ι κ ρ α} (h : Processes.Reachable program r.perform initial r.permitted s) :
    r.invariant s.state ∧ ∀ i p, s.all[i]? = some p → r.Established post i p s.state := by
  induction h with
  | start h => exact ⟨hinitial _ h, nofun⟩
  | @step s s' h hstep ih =>
      obtain ⟨hinv, hall⟩ := ih
      cases hstep with
      | begin input =>
          refine ⟨hinv, fun i p hp => ?_⟩
          rw [List.getElem?_append] at hp
          split at hp
          · exact hall i p hp
          · obtain ⟨-, rfl⟩ : i - s.all.length = 0 ∧ _ := by simpa [List.getElem?_singleton] using hp
            exact ⟨s.state, hinv, r.refl _ _, hprogram i input s.state hinv⟩
      | @request i p k next answer state' hi hp hpermitted hperform =>
          obtain ⟨s₀, -, hrely, hkeeps⟩ := hall i p hi
          rw [hp] at hkeeps
          obtain ⟨-, hanswer⟩ := hkeeps s.state hinv hrely hpermitted
          obtain ⟨hallows, hnext⟩ := hanswer answer state' hperform
          refine ⟨hallows.invariant, fun j q hq => ?_⟩
          rw [List.getElem?_set] at hq
          split at hq
          · -- the program that moved
            rename_i hij
            subst hij
            obtain ⟨-, rfl⟩ : i < s.all.length ∧ _ := by simpa using hq
            exact ⟨state', hallows.invariant, r.refl _ _, hnext⟩
          · rename_i hij
            obtain ⟨s₀, hs₀, hrely, hkeeps⟩ := hall j q hq
            exact ⟨s₀, hs₀, r.trans _ _ _ _ hrely (hallows.others j (Ne.symm hij)), hkeeps⟩

/-- What holds before the next request of a program in a reachable system, and where it leads. -/
theorem reachable_request (hinitial : ∀ s, initial s → r.invariant s)
    (hprogram : ∀ i input s, r.invariant s → r.Keeps i input (post i input) [] s (program input))
    {s : Processes σ ι κ ρ α} (h : Processes.Reachable program r.perform initial r.permitted s) {i : Nat}
    {p : Process ι κ ρ α} (hi : s.all[i]? = some p) {k : κ} {next : ρ k → Calls κ ρ α} (hp : p.program = .call k next)
    (hpermitted : r.permitted s.state p.input p.history k) :
    r.asserted s.state p.input p.history k ∧ ∀ answer state', r.perform i s.state k answer state' →
      r.Keeps i p.input (post i p.input) (p.history ++ [⟨k, answer⟩]) state' (next answer) := by
  obtain ⟨hinv, hall⟩ := reachable_established hinitial hprogram h
  obtain ⟨s₀, -, hrely, hkeeps⟩ := hall i p hi
  rw [hp] at hkeeps
  obtain ⟨hasserted, hanswer⟩ := hkeeps s.state hinv hrely hpermitted
  exact ⟨hasserted, fun answer state' hperform => (hanswer answer state' hperform).2⟩

end Reliance

end SecPlatform
