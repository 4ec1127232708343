import SecPlatform.Library.FileProgram

/-!
# Programs over one shared file meet their specifications when interleaved

`Meets` is the specification of a program for what it knows to stand in front of the file. Steps of other
calls only append, so knowledge stays true and every reachable state keeps the invariant.
-/

namespace SecPlatform

variable {κ σ ρ ε α β : Type}

/-! ## Specifications -/

/-- What a group of programs maintains and may assume. -/
structure FileSpec (κ σ ε α : Type) where
  /-- Contents of the file. -/
  valid : List σ → Prop
  /-- Changes of the file by a call. -/
  change : κ → Option (List σ) → List σ → Prop
  /-- What a call may rely on when it reads; the flag tells whether one of its changes was refused. -/
  guard : κ → Bool → List σ → Prop
  /-- What is in the file when a call returns a value. -/
  post : κ → List σ → α → Prop
  /-- How a call may fail on what it knows. -/
  fails : κ → Option (List σ) → ε → Prop

def FileSpec.ValidFile (spec : FileSpec κ σ ε α) (file : Option (List σ)) : Prop :=
  ∀ text, file = some text → spec.valid text

/-- What a call knows stands in front of the file. -/
def KnownIn (known file : Option (List σ)) : Prop := ∀ k, known = some k → ∃ text, file = some text ∧ k <+: text

theorem knownIn_none (file : Option (List σ)) : KnownIn none file := by intro k h; cases h

theorem knownIn_refl (file : Option (List σ)) : KnownIn file file := fun k hk => ⟨k, hk, List.prefix_rfl⟩

theorem KnownIn.append {known : Option (List σ)} {text suffix : List σ} (h : KnownIn known (some text)) :
    KnownIn known (some (text ++ suffix)) := by
  intro k hk
  obtain ⟨_, ⟨⟩, hp⟩ := h k hk
  exact ⟨_, rfl, hp.trans (List.prefix_append _ _)⟩

theorem KnownIn.of_none {known file' : Option (List σ)} (h : KnownIn known none) : KnownIn known file' := by
  intro k hk
  obtain ⟨_, ⟨⟩, _⟩ := h k hk

namespace FileProgram

variable (reads : Nat → Option (List σ) → Except ρ (Option (List σ)) → Prop)

/-- The program keeps the specification, whatever other calls append in between, and ends with a value only where `Q`
holds. -/
def Keeps (spec : FileSpec κ σ ε α) (request : κ) (Q : Bool → Option (List σ) → β → Prop) :
    Bool → Option (List σ) → FileProgram σ ρ ε β → Prop
  | lost, known, .done (.ok b) => Q lost known b
  | _, known, .done (.error e) => spec.fails request known e
  | lost, known, .clock next => ∀ expired, Keeps spec request Q lost known (next expired)
  | lost, known, .read maximum next => ∀ file result, spec.ValidFile file → KnownIn known file →
      reads maximum file result → (∀ text, result = .ok (some text) → spec.guard request lost text) →
      Keeps spec request Q lost file (next result)
  | lost, known, .create content next =>
      spec.valid content ∧ spec.change request none content ∧ Keeps spec request Q lost (some content) (next true) ∧
        Keeps spec request Q true known (next false)
  | lost, known, .append expected suffix next =>
      spec.valid (expected ++ suffix) ∧ spec.change request (some expected) (expected ++ suffix) ∧
        Keeps spec request Q lost (some (expected ++ suffix)) (next true) ∧
        Keeps spec request Q true known (next false)

/-- A value is returned only where the file starts with what the specification asks for. -/
def Meets (spec : FileSpec κ σ ε α) (request : κ) : Bool → Option (List σ) → FileProgram σ ρ ε α → Prop :=
  Keeps reads spec request fun _ known a => ∃ k, known = some k ∧ spec.post request k a

section Rules

variable {reads} {spec : FileSpec κ σ ε α} {request : κ} {Q : Bool → Option (List σ) → β → Prop} {lost : Bool}
  {known : Option (List σ)}

theorem keeps_pure {b : β} (h : Q lost known b) :
    Keeps reads spec request Q lost known (pure b : FileProgram σ ρ ε β) := h

theorem keeps_lift {x : Except ε β} (h : ∀ b, x = .ok b → Q lost known b)
    (herror : ∀ e, x = .error e → spec.fails request known e) :
    Keeps reads spec request Q lost known (lift x : FileProgram σ ρ ε β) := by
  cases x with
  | error e => exact herror e rfl
  | ok b => exact h b rfl

theorem keeps_error {e : ε} (h : spec.fails request known e) :
    Keeps reads spec request Q lost known (lift (.error e) : FileProgram σ ρ ε β) := h

theorem keeps_readFile {maximum : Nat} {Q : Bool → Option (List σ) → Except ρ (Option (List σ)) → Prop}
    (h : ∀ file result, spec.ValidFile file → KnownIn known file → reads maximum file result →
      (∀ text, result = .ok (some text) → spec.guard request lost text) → Q lost file result) :
    Keeps reads spec request Q lost known (readFile maximum : FileProgram σ ρ ε _) := h

theorem keeps_createFile {content : List σ} {Q : Bool → Option (List σ) → Bool → Prop} (hvalid : spec.valid content)
    (hchange : spec.change request none content) (htrue : Q lost (some content) true) (hfalse : Q true known false) :
    Keeps reads spec request Q lost known (createFile content : FileProgram σ ρ ε _) :=
  ⟨hvalid, hchange, htrue, hfalse⟩

theorem keeps_appendFile {expected suffix : List σ} {Q : Bool → Option (List σ) → Bool → Prop}
    (hvalid : spec.valid (expected ++ suffix)) (hchange : spec.change request (some expected) (expected ++ suffix))
    (htrue : Q lost (some (expected ++ suffix)) true) (hfalse : Q true known false) :
    Keeps reads spec request Q lost known (appendFile expected suffix : FileProgram σ ρ ε _) :=
  ⟨hvalid, hchange, htrue, hfalse⟩

theorem keeps_expired {Q : Bool → Option (List σ) → Bool → Prop} (h : ∀ b, Q lost known b) :
    Keeps reads spec request Q lost known (expired : FileProgram σ ρ ε _) := h

/-- A sequence keeps what its first part hands over. -/
theorem keeps_bind {γ : Type} {p : FileProgram σ ρ ε γ} {f : γ → FileProgram σ ρ ε β}
    (h : Keeps reads spec request (fun lost known c => Keeps reads spec request Q lost known (f c)) lost known p) :
    Keeps reads spec request Q lost known (p >>= f) := by
  induction p generalizing lost known with
  | done result =>
      cases result with
      | ok c => exact h
      | error e => exact h
  | clock next ih => exact fun expired => ih expired (h expired)
  | read maximum next ih => exact fun file result hv hk hr hg => ih _ (h file result hv hk hr hg)
  | create content next ih => exact ⟨h.1, h.2.1, ih _ h.2.2.1, ih _ h.2.2.2⟩
  | append expected suffix next ih => exact ⟨h.1, h.2.1, ih _ h.2.2.1, ih _ h.2.2.2⟩

end Rules

end FileProgram

/-! ## Operations without a change -/

namespace FileProgram

variable {reads : Nat → Option (List σ) → Except ρ (Option (List σ))} {file : Option (List σ)}

/-- The program comes to another one before the deadline, by reading only. -/
inductive Quiet (reads : Nat → Option (List σ) → Except ρ (Option (List σ))) (file : Option (List σ)) :
    FileProgram σ ρ ε α → FileProgram σ ρ ε α → Prop
  | refl (p) : Quiet reads file p p
  | clock {next q} (h : Quiet reads file (next false) q) : Quiet reads file (.clock next) q
  | read {maximum next q} (h : Quiet reads file (next (reads maximum file)) q) :
      Quiet reads file (.read maximum next) q

theorem Quiet.trans {p q r : FileProgram σ ρ ε α} (h : Quiet reads file p q) (h' : Quiet reads file q r) :
    Quiet reads file p r := by
  induction h with
  | refl p => exact h'
  | clock _ ih => exact .clock (ih h')
  | read _ ih => exact .read (ih h')

theorem quiet_lift {x : Except ε α} {a : α} (h : x = .ok a) :
    Quiet reads file (lift x : FileProgram σ ρ ε α) (.done (.ok a)) := h ▸ .refl _

theorem quiet_lift_error {x : Except ε α} {e : ε} (h : x = .error e) :
    Quiet reads file (lift x : FileProgram σ ρ ε α) (.done (.error e)) := h ▸ .refl _

theorem Quiet.bind_left {p q : FileProgram σ ρ ε β} {f : β → FileProgram σ ρ ε α} (h : Quiet reads file p q) :
    Quiet reads file (p >>= f) (q >>= f) := by
  induction h with
  | refl p => exact .refl _
  | clock _ ih => exact .clock ih
  | read _ ih => exact .read ih

/-- The first part ends with a value and the rest goes on. -/
theorem Quiet.bind {p : FileProgram σ ρ ε β} {b : β} {f : β → FileProgram σ ρ ε α} {q : FileProgram σ ρ ε α}
    (h : Quiet reads file p (.done (.ok b))) (h' : Quiet reads file (f b) q) : Quiet reads file (p >>= f) q :=
  h.bind_left.trans h'

theorem Quiet.bind_error {p : FileProgram σ ρ ε β} {e : ε} {f : β → FileProgram σ ρ ε α}
    (h : Quiet reads file p (.done (.error e))) : Quiet reads file (p >>= f) (.done (.error e)) := h.bind_left

theorem Quiet.run [DecidableEq σ] {p q : FileProgram σ ρ ε α} (h : Quiet reads file p q) :
    p.run reads file = q.run reads file := by
  induction h with
  | refl p => rfl
  | clock _ ih => exact ih
  | read _ ih => exact ih

end FileProgram

/-! ## Interleavings -/

namespace FileSystem

open FileProgram

variable {start : κ → FileProgram σ ρ ε α} {reads : Nat → Option (List σ) → Except ρ (Option (List σ)) → Prop}
  {spec : FileSpec κ σ ε α}

/-- The file is valid and every call meets the specification for something it knows. -/
structure Invariant (reads : Nat → Option (List σ) → Except ρ (Option (List σ)) → Prop) (spec : FileSpec κ σ ε α)
    (s : FileSystem κ σ ρ ε α) : Prop where
  valid : spec.ValidFile s.file
  calls : ∀ call ∈ s.calls, ∃ known, KnownIn known s.file ∧ Meets reads spec call.request call.lost known call.program

/-- Reads are guarded. -/
def Guarded (spec : FileSpec κ σ ε α) (s : FileSystem κ σ ρ ε α) : Action κ σ ρ → Prop
  | .read i (.ok (some text)) => ∀ call, s.calls[i]? = some call → spec.guard call.request call.lost text
  | _ => True

/-- The file only changes as the specification says, by the call that moves. -/
def Changes (spec : FileSpec κ σ ε α) (s : FileSystem κ σ ρ ε α) (a : Action κ σ ρ) (s' : FileSystem κ σ ρ ε α) : Prop :=
  s'.file = s.file ∨ ∃ i call text, (a = .create i true ∨ a = .append i true) ∧ s.calls[i]? = some call ∧
    s'.file = some text ∧ spec.change call.request s.file text

theorem invariant_empty : Invariant reads spec (.empty : FileSystem κ σ ρ ε α) :=
  ⟨by rintro _ ⟨⟩, by rintro _ ⟨⟩⟩

/-- One call moves and the file grows: the other calls keep what they know. -/
theorem Invariant.moved {s : FileSystem κ σ ρ ε α} (h : Invariant reads spec s) {i : Nat} {call : FileCall κ σ ρ ε α}
    {file : Option (List σ)} (hvalid : spec.ValidFile file)
    (hgrow : ∀ known, KnownIn known s.file → KnownIn known file)
    (hcall : ∃ known, KnownIn known file ∧ Meets reads spec call.request call.lost known call.program) :
    Invariant reads spec (s.moved i call file) := by
  refine ⟨hvalid, fun c hc => ?_⟩
  rcases List.mem_or_eq_of_mem_set hc with hc | rfl
  · obtain ⟨known, hknown, hmeets⟩ := h.calls c hc
    exact ⟨known, hgrow known hknown, hmeets⟩
  · exact hcall

/-- One step keeps the invariant and changes the file as the specification says. -/
theorem Step.invariant (hstart : ∀ request, Meets reads spec request false none (start request))
    {s s' : FileSystem κ σ ρ ε α} {a : Action κ σ ρ} (hstep : Step start reads s a s') (hguard : Guarded spec s a)
    (h : Invariant reads spec s) : Invariant reads spec s' ∧ Changes spec s a s' := by
  cases hstep with
  | issue request =>
      refine ⟨⟨h.valid, fun call hcall => ?_⟩, .inl rfl⟩
      rcases List.mem_append.mp hcall with hcall | hcall
      · exact h.calls call hcall
      · rw [List.mem_singleton] at hcall
        subst hcall
        exact ⟨none, knownIn_none _, hstart request⟩
  | clock expired hi hp =>
      obtain ⟨known, hknown, hmeets⟩ := h.calls _ (List.mem_of_getElem? hi)
      rw [hp] at hmeets
      exact ⟨h.moved h.valid (fun _ hk => hk) ⟨known, hknown, hmeets expired⟩, .inl rfl⟩
  | @read i call maximum next result hi hp hr =>
      obtain ⟨known, hknown, hmeets⟩ := h.calls _ (List.mem_of_getElem? hi)
      rw [hp] at hmeets
      refine ⟨h.moved h.valid (fun _ hk => hk) ⟨s.file, knownIn_refl _, ?_⟩, .inl rfl⟩
      refine hmeets s.file result h.valid hknown hr ?_
      rintro text rfl
      exact hguard call hi
  | created hi hp hfile =>
      obtain ⟨known, hknown, hmeets⟩ := h.calls _ (List.mem_of_getElem? hi)
      rw [hp] at hmeets
      obtain ⟨hvalid, hchange, htrue, _⟩ := hmeets
      refine ⟨h.moved ?_ ?_ ⟨_, knownIn_refl _, htrue⟩,
        .inr ⟨_, _, _, .inl rfl, hi, rfl, by rw [hfile]; exact hchange⟩⟩
      · rintro _ ⟨⟩; exact hvalid
      · intro k hk; rw [hfile] at hk; exact hk.of_none
  | createRefused hi hp =>
      obtain ⟨known, hknown, hmeets⟩ := h.calls _ (List.mem_of_getElem? hi)
      rw [hp] at hmeets
      exact ⟨h.moved h.valid (fun _ hk => hk) ⟨known, hknown, hmeets.2.2.2⟩, .inl rfl⟩
  | appended hi hp hfile =>
      obtain ⟨known, hknown, hmeets⟩ := h.calls _ (List.mem_of_getElem? hi)
      rw [hp] at hmeets
      obtain ⟨hvalid, hchange, htrue, _⟩ := hmeets
      refine ⟨h.moved ?_ ?_ ⟨_, knownIn_refl _, htrue⟩,
        .inr ⟨_, _, _, .inr rfl, hi, rfl, by rw [hfile]; exact hchange⟩⟩
      · rintro _ ⟨⟩; exact hvalid
      · intro k hk; rw [hfile] at hk; exact hk.append
  | appendRefused hi hp =>
      obtain ⟨known, hknown, hmeets⟩ := h.calls _ (List.mem_of_getElem? hi)
      rw [hp] at hmeets
      exact ⟨h.moved h.valid (fun _ hk => hk) ⟨known, hknown, hmeets.2.2.2⟩, .inl rfl⟩

/-- Every run whose reads are guarded keeps the invariant. -/
theorem Reachable.invariant (hstart : ∀ request, Meets reads spec request false none (start request))
    {s : FileSystem κ σ ρ ε α} (h : Reachable start reads (Guarded spec) s) : Invariant reads spec s := by
  induction h with
  | empty => exact invariant_empty
  | step _ hstep hguard ih => exact (hstep.invariant hstart hguard ih).1

/-- What is permitted can be weakened. -/
theorem Reachable.mono {permitted permitted' : FileSystem κ σ ρ ε α → Action κ σ ρ → Prop}
    {s : FileSystem κ σ ρ ε α} (h : Reachable start reads permitted s) (hp : ∀ s a, permitted s a → permitted' s a) :
    Reachable start reads permitted' s := by
  induction h with
  | empty => exact .empty
  | step _ hstep ha ih => exact .step ih hstep (hp _ _ ha)

/-- A call that returned a value finds its postcondition true of what stands in front of the file. -/
theorem Invariant.returned {s : FileSystem κ σ ρ ε α} (h : Invariant reads spec s) {call : FileCall κ σ ρ ε α}
    (hcall : call ∈ s.calls) {a : α} (ha : call.program = .done (.ok a)) :
    ∃ k text, s.file = some text ∧ k <+: text ∧ spec.post call.request k a := by
  obtain ⟨known, hknown, hmeets⟩ := h.calls call hcall
  rw [ha] at hmeets
  obtain ⟨k, rfl, hpost⟩ := hmeets
  obtain ⟨text, hfile, hp⟩ := hknown k rfl
  exact ⟨k, text, hfile, hp, hpost⟩

/-- A call fails only as the specification says. -/
theorem Invariant.failed {s : FileSystem κ σ ρ ε α} (h : Invariant reads spec s) {call : FileCall κ σ ρ ε α}
    (hcall : call ∈ s.calls) {e : ε} (he : call.program = .done (.error e)) :
    ∃ known, KnownIn known s.file ∧ spec.fails call.request known e := by
  obtain ⟨known, hknown, hmeets⟩ := h.calls call hcall
  rw [he] at hmeets
  exact ⟨known, hknown, hmeets⟩

/-! ## Calls on their own -/

section Alone

variable {permitted : FileSystem κ σ ρ ε α → Action κ σ ρ → Prop} {s : FileSystem κ σ ρ ε α} {i : Nat}
  {call call' : FileCall κ σ ρ ε α} {file file' : Option (List σ)} {p q : FileProgram σ ρ ε α}

theorem moved_moved : (s.moved i call file).moved i call' file' = s.moved i call' file' := by
  simp [moved, List.set_set]

theorem getElem?_moved (h : s.calls[i]? = some call) : (s.moved i call' file).calls[i]? = some call' := by
  obtain ⟨hi, _⟩ := List.getElem?_eq_some_iff.mp h
  simp [moved, hi]

theorem moved_self (h : s.calls[i]? = some call) : s.moved i call s.file = s := by
  obtain ⟨hi, rfl⟩ := List.getElem?_eq_some_iff.mp h
  simp [moved]

/-- A call may look at the clock and read on its own. -/
theorem Reachable.quiet {readFn : Nat → Option (List σ) → Except ρ (Option (List σ))}
    (hreads : ∀ m file, reads m file (readFn m file))
    {lost : Bool} (hp : ∀ s' a, (∀ call, s'.calls[i]? = some call → call.lost = lost) →
      (a = .clock i false ∨ ∃ result, a = .read i result) → permitted s' a)
    (hi : s.calls[i]? = some call) (hlost : call.lost = lost) (hq : Quiet readFn s.file call.program q) (h : Reachable start reads permitted s) :
    Reachable start reads permitted (s.moved i { call with program := q } s.file) := by
  generalize hprogram : call.program = p at hq
  generalize hfile : s.file = file at hq
  induction hq generalizing s call with
  | refl p =>
      subst hprogram hfile
      rwa [moved_self hi]
  | @clock next q _ ih =>
      subst hfile
      have hstep := h.step (Step.clock false hi hprogram) (hp _ _ (by simp [hi, hlost]) (.inl rfl))
      have hmoved : (s.moved i { call with program := next false } s.file).calls[i]? =
          some { call with program := next false } := getElem?_moved hi
      have hrest := ih hmoved hlost hstep rfl rfl
      rwa [moved_moved] at hrest
  | @read maximum next q _ ih =>
      subst hfile
      have hstep := h.step (Step.read (readFn maximum s.file) hi hprogram (hreads _ _))
        (hp _ _ (by simp [hi, hlost]) (.inr ⟨_, rfl⟩))
      have hmoved : (s.moved i { call with program := next (readFn maximum s.file) } s.file).calls[i]? =
          some { call with program := next (readFn maximum s.file) } := getElem?_moved hi
      have hrest := ih hmoved hlost hstep rfl rfl
      rwa [moved_moved] at hrest

theorem moved_concat {calls : List (FileCall κ σ ρ ε α)} :
    (⟨file, calls ++ [call]⟩ : FileSystem κ σ ρ ε α).moved calls.length call' file' = ⟨file', calls ++ [call']⟩ := by
  simp [moved]

/-- Steps are permitted unless a call that lost a change reads. -/
def PermitsUnlost (permitted : FileSystem κ σ ρ ε α → Action κ σ ρ → Prop) : Prop :=
  ∀ s a, (∀ i result call, a = .read i result → s.calls[i]? = some call → call.lost = false) → permitted s a

variable {calls : List (FileCall κ σ ρ ε α)} {request : κ} {content : List σ}

/-- A new call runs on its own up to its first change. -/
theorem Reachable.issue {readFn : Nat → Option (List σ) → Except ρ (Option (List σ))}
    (hreads : ∀ m file, reads m file (readFn m file)) (hp : PermitsUnlost permitted)
    (hq : Quiet readFn file (start request) q)
    (h : Reachable start reads permitted ⟨file, calls⟩) :
    Reachable start reads permitted ⟨file, calls ++ [⟨request, q, false⟩]⟩ := by
  have hissue := h.step (Step.issue _ request) (hp _ _ (by rintro _ _ _ ⟨⟩))
  have hquiet := hissue.quiet hreads (fun s' a hlost ha => hp s' a ?_) List.getElem?_concat_length rfl hq
  · rwa [moved_concat] at hquiet
  · rintro i result call' rfl hcall'
    rcases ha with ha | ⟨_, ha⟩
    · cases ha
    · cases ha
      exact hlost call' hcall'

theorem Reachable.created_last {next : Bool → FileProgram σ ρ ε α} (hp : PermitsUnlost permitted)
    (h : Reachable start reads permitted ⟨none, calls ++ [⟨request, .create content next, false⟩]⟩) :
    Reachable start reads permitted ⟨some content, calls ++ [⟨request, next true, false⟩]⟩ := by
  have hstep := h.step (Step.created List.getElem?_concat_length rfl rfl) (hp _ _ (by rintro _ _ _ ⟨⟩))
  rwa [moved_concat] at hstep

theorem Reachable.appended_last {next : Bool → FileProgram σ ρ ε α} {text suffix : List σ}
    (hp : PermitsUnlost permitted)
    (h : Reachable start reads permitted ⟨some text, calls ++ [⟨request, .append text suffix next, false⟩]⟩) :
    Reachable start reads permitted ⟨some (text ++ suffix), calls ++ [⟨request, next true, false⟩]⟩ := by
  have hstep := h.step (Step.appended List.getElem?_concat_length rfl rfl) (hp _ _ (by rintro _ _ _ ⟨⟩))
  rwa [moved_concat] at hstep

end Alone

end FileSystem

end SecPlatform

/-!
## What the file system answers to one call

A single program against an environment that may answer anything: a look at the clock or a read may have any
result, and a creation or an append may also throw, before or after it has written.
-/

namespace SecPlatform

/-- The answer to a creation or an append. -/
inductive WriteAnswer (ε : Type) where
  | done (written : Bool)
  | threw (written : Bool) (e : ε)

def WriteAnswer.written {ε : Type} : WriteAnswer ε → Bool
  | .done written => written
  | .threw written _ => written

namespace FileProgram

variable {σ ρ ε α β : Type}

/-- The program gets the answers to its writes and ends with the result. -/
inductive Ends : FileProgram σ ρ ε α → List (WriteAnswer ε) → Except ε α → Prop
  | done (result) : Ends (.done result) [] result
  | clock {next answers result} (expired) (h : Ends (next expired) answers result) : Ends (.clock next) answers result
  | read {maximum next answers result} (content) (h : Ends (next content) answers result) :
      Ends (.read maximum next) answers result
  | create {content next answers result} (created) (h : Ends (next created) answers result) :
      Ends (.create content next) (.done created :: answers) result
  | createThrew {content next} (written e) : Ends (.create content next) [.threw written e] (.error e)
  | append {expected suffix next answers result} (appended) (h : Ends (next appended) answers result) :
      Ends (.append expected suffix next) (.done appended :: answers) result
  | appendThrew {expected suffix next} (written e) : Ends (.append expected suffix next) [.threw written e] (.error e)

/-- A sequence ends where its first part throws, or behind it. -/
theorem Ends.of_bind {p : FileProgram σ ρ ε β} {f : β → FileProgram σ ρ ε α} {answers : List (WriteAnswer ε)}
    {result : Except ε α} (h : Ends (p >>= f) answers result) :
    (∃ e, Ends p answers (.error e) ∧ result = .error e) ∨
      ∃ b first rest, answers = first ++ rest ∧ Ends p first (.ok b) ∧ Ends (f b) rest result := by
  change Ends (p.bind f) answers result at h
  induction p generalizing answers with
  | done r =>
      cases r with
      | ok b => exact .inr ⟨b, [], answers, rfl, .done _, h⟩
      | error e =>
          cases h
          exact .inl ⟨e, .done _, rfl⟩
  | clock next ih =>
      cases h with
      | clock expired h =>
          rcases ih expired h with ⟨e, hp, rfl⟩ | ⟨b, first, rest, rfl, hp, hf⟩
          · exact .inl ⟨e, .clock expired hp, rfl⟩
          · exact .inr ⟨b, first, rest, rfl, .clock expired hp, hf⟩
  | read maximum next ih =>
      cases h with
      | read content h =>
          rcases ih content h with ⟨e, hp, rfl⟩ | ⟨b, first, rest, rfl, hp, hf⟩
          · exact .inl ⟨e, .read content hp, rfl⟩
          · exact .inr ⟨b, first, rest, rfl, .read content hp, hf⟩
  | create content next ih =>
      cases h with
      | create created h =>
          rcases ih created h with ⟨e, hp, rfl⟩ | ⟨b, first, rest, rfl, hp, hf⟩
          · exact .inl ⟨e, .create created hp, rfl⟩
          · exact .inr ⟨b, .done created :: first, rest, rfl, .create created hp, hf⟩
      | createThrew written e => exact .inl ⟨e, .createThrew written e, rfl⟩
  | append expected suffix next ih =>
      cases h with
      | append appended h =>
          rcases ih appended h with ⟨e, hp, rfl⟩ | ⟨b, first, rest, rfl, hp, hf⟩
          · exact .inl ⟨e, .append appended hp, rfl⟩
          · exact .inr ⟨b, .done appended :: first, rest, rfl, .append appended hp, hf⟩
      | appendThrew written e => exact .inl ⟨e, .appendThrew written e, rfl⟩

/-- A program ends as it does behind operations that write nothing. -/
theorem Quiet.ends {reads : Nat → Option (List σ) → Except ρ (Option (List σ))} {file : Option (List σ)}
    {p q : FileProgram σ ρ ε α} (h : Quiet reads file p q) {answers : List (WriteAnswer ε)} {result : Except ε α}
    (hq : Ends q answers result) : Ends p answers result := by
  induction h with
  | refl => exact hq
  | clock _ ih => exact .clock false (ih hq)
  | read _ ih => exact .read _ (ih hq)

/-! ### Programs that do not write -/

/-- The program writes nothing. -/
def Silent (p : FileProgram σ ρ ε α) : Prop := ∀ answers result, Ends p answers result → answers = []

theorem silent_lift (x : Except ε α) : Silent (lift x : FileProgram σ ρ ε α) := by
  rintro _ _ ⟨⟩
  rfl

theorem silent_pure (a : α) : Silent (pure a : FileProgram σ ρ ε α) := silent_lift (.ok a)

theorem silent_expired : Silent (expired : FileProgram σ ρ ε Bool) := by
  rintro _ _ (_ | ⟨_, ⟨⟩⟩)
  rfl

theorem silent_readFile (maximum : Nat) : Silent (readFile maximum : FileProgram σ ρ ε _) := by
  rintro _ _ (_ | _ | ⟨_, ⟨⟩⟩)
  rfl

theorem silent_bind {p : FileProgram σ ρ ε β} {f : β → FileProgram σ ρ ε α} (hp : Silent p) (hf : ∀ b, Silent (f b)) :
    Silent (p >>= f) := by
  intro answers result h
  rcases h.of_bind with ⟨e, h, -⟩ | ⟨b, first, rest, rfl, h, hrest⟩
  · exact hp _ _ h
  · rw [hp _ _ h, hf b _ _ hrest, List.append_nil]

/-! ### Programs that answer what they have written -/

/-- A write that was made is the answer of the program, and one that threw is its error. -/
def Settles (p : FileProgram σ ρ ε α) : Prop :=
  ∀ answers result, Ends p answers result → ∀ answer ∈ answers,
    (answer = .done true → ∃ a, result = .ok a) ∧ ∀ written e, answer = .threw written e → result = .error e

theorem Silent.settles {p : FileProgram σ ρ ε α} (h : Silent p) : Settles p := by
  intro answers result hends answer hanswer
  rw [h _ _ hends] at hanswer
  cases hanswer

theorem settles_bind {p : FileProgram σ ρ ε β} {f : β → FileProgram σ ρ ε α} (hp : Silent p) (hf : ∀ b, Settles (f b)) :
    Settles (p >>= f) := by
  intro answers result h
  rcases h.of_bind with ⟨e, h, -⟩ | ⟨b, first, rest, rfl, h, hrest⟩
  · rw [hp _ _ h]
    intro answer hanswer
    cases hanswer
  · rw [hp _ _ h, List.nil_append]
    exact hf b _ _ hrest

/-- An append before the answer. -/
theorem settles_appendFile {expected suffix : List σ} {f : Bool → FileProgram σ ρ ε α} {a : α} (htrue : f true = pure a)
    (hfalse : Silent (f false)) : Settles (appendFile expected suffix >>= f) := by
  intro answers result h answer hanswer
  change Ends (.append expected suffix f) answers result at h
  cases h with
  | append appended h =>
      cases appended with
      | true =>
          rw [htrue] at h
          cases h
          obtain rfl := List.mem_singleton.mp hanswer
          exact ⟨fun _ => ⟨a, rfl⟩, nofun⟩
      | false =>
          rw [hfalse _ _ h] at hanswer
          obtain rfl := List.mem_singleton.mp hanswer
          exact ⟨nofun, nofun⟩
  | appendThrew written e =>
      obtain rfl := List.mem_singleton.mp hanswer
      refine ⟨nofun, ?_⟩
      rintro _ _ ⟨⟩
      rfl

end FileProgram

end SecPlatform
