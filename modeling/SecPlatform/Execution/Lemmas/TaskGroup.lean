import SecPlatform.Execution.TaskGroup
import SecPlatform.Library.Except

/-!
# What a group has done so far

The state of a group is determined by its events up to the places of its workers. The callbacks that
were called and have not ended are those the workers wait for.
-/

namespace SecPlatform.Execution

variable {ι ρ ω : Type}

/-! ## Admission -/

/-- A live signal and a limit that is a positive safe integer are admitted, and nothing else. -/
theorem captureGroupOptions_eq_ok {options : TaskGroupOptions ρ} {admission : GroupAdmission ρ} :
    captureGroupOptions options = .ok admission ↔
      options.signal.bind (·.reason) = none ∧ admission.signal = options.signal ∧
        isSafeInteger admission.concurrency ∧
        (options.concurrency.getD defaultConcurrency).toNat? = some admission.concurrency := by
  unfold captureGroupOptions throwIfNativeAborted
  cases options.signal.bind (·.reason) with
  | some reason => simp
  | none =>
      cases hn : (options.concurrency.getD defaultConcurrency).toNat? with
      | none => simp
      | some n =>
          obtain ⟨concurrency, hpos, signal⟩ := admission
          simp only [ok_bind, Option.some.injEq, true_and]
          split
          · rename_i h
            simp only [Except.ok.injEq, GroupAdmission.mk.injEq]
            constructor
            · rintro ⟨rfl, rfl⟩
              exact ⟨rfl, h.1, rfl⟩
            · rintro ⟨rfl, -, rfl⟩
              exact ⟨rfl, rfl⟩
          · rename_i h
            simp only [reduceCtorEq, false_iff, not_and]
            rintro rfl hsafe rfl
            exact h ⟨hsafe, hpos⟩

/-- An admitted group starts. -/
theorem runCapturedGroup_of_captured {options : TaskGroupOptions ρ} {admission : GroupAdmission ρ} (items : List ι)
    (h : captureGroupOptions options = .ok admission) :
    ∃ s : GroupState ρ ω, runCapturedGroup items admission = .ok s := by
  obtain ⟨hlive, hsignal, -⟩ := captureGroupOptions_eq_ok.mp h
  rw [runCapturedGroup, throwIfNativeAborted, hsignal, hlive]
  exact ⟨_, rfl⟩

/-! ## Reading a run -/

namespace GroupEvent

/-- The parent's abort and the first failure close the group to further calls. -/
def Closes : GroupEvent ι ρ ω → Prop
  | .reject .. | .abort _ => True
  | .call .. | .leave _ | .fulfil .. | .settle => False

def Calls : GroupEvent ι ρ ω → Prop
  | .call .. => True
  | .leave _ | .fulfil .. | .reject .. | .abort _ | .settle => False

def called? : GroupEvent ι ρ ω → Option Nat
  | .call _ index _ => some index
  | .leave _ | .fulfil .. | .reject .. | .abort _ | .settle => none

/-- The index whose callback ends. -/
def ended? : GroupEvent ι ρ ω → Option Nat
  | .fulfil _ index _ | .reject _ index _ => some index
  | .call .. | .leave _ | .abort _ | .settle => none

def value? : GroupEvent ι ρ ω → Option (Nat × ω)
  | .fulfil _ index value => some (index, value)
  | .call .. | .leave _ | .reject .. | .abort _ | .settle => none

def failure? : GroupEvent ι ρ ω → Option (TaskFailure ρ)
  | .reject _ index reason => some ⟨index, reason⟩
  | .call .. | .leave _ | .fulfil .. | .abort _ | .settle => none

/-- What closes the group, and whether it is the parent's abort. -/
def cause? : GroupEvent ι ρ ω → Option (Bool × ρ)
  | .abort reason => some (true, reason)
  | .reject _ _ reason => some (false, reason)
  | .call .. | .leave _ | .fulfil .. | .settle => none

end GroupEvent

open GroupEvent

def calledIndices (events : List (GroupEvent ι ρ ω)) : List Nat := events.filterMap called?

def endedIndices (events : List (GroupEvent ι ρ ω)) : List Nat := events.filterMap ended?

def fulfilments (events : List (GroupEvent ι ρ ω)) : List (Nat × ω) := events.filterMap value?

def failuresOf (events : List (GroupEvent ι ρ ω)) : List (TaskFailure ρ) := events.filterMap failure?

theorem filterMap_snoc {α β : Type} (f : α → Option β) (xs : List α) (x : α) :
    (xs ++ [x]).filterMap f = xs.filterMap f ++ (f x).toList := by
  rw [List.filterMap_append]
  cases hx : f x <;> simp [hx]

@[simp] theorem calledIndices_snoc (events : List (GroupEvent ι ρ ω)) (e : GroupEvent ι ρ ω) :
    calledIndices (events ++ [e]) = calledIndices events ++ e.called?.toList := filterMap_snoc _ _ _

@[simp] theorem endedIndices_snoc (events : List (GroupEvent ι ρ ω)) (e : GroupEvent ι ρ ω) :
    endedIndices (events ++ [e]) = endedIndices events ++ e.ended?.toList := filterMap_snoc _ _ _

@[simp] theorem fulfilments_snoc (events : List (GroupEvent ι ρ ω)) (e : GroupEvent ι ρ ω) :
    fulfilments (events ++ [e]) = fulfilments events ++ e.value?.toList := filterMap_snoc _ _ _

@[simp] theorem failuresOf_snoc (events : List (GroupEvent ι ρ ω)) (e : GroupEvent ι ρ ω) :
    failuresOf (events ++ [e]) = failuresOf events ++ e.failure?.toList := filterMap_snoc _ _ _

/-- The first event that closed the group. -/
def firstCause (events : List (GroupEvent ι ρ ω)) : Option (Bool × ρ) := events.findSome? cause?

/-- The cause of the rejection: the parent's cancellation or the first failure, whichever came first. -/
def primaryCause (events : List (GroupEvent ι ρ ω)) : Option ρ := (firstCause events).map Prod.snd

/-- The parent's cancellation, when it came before every failure. -/
def leadingCancellation (events : List (GroupEvent ι ρ ω)) : Option ρ :=
  (firstCause events).bind fun cause => if cause.1 then some cause.2 else none

/-! ## Workers -/

theorem split_of_getElem? {α : Type} {xs : List α} {w : Nat} {a : α} (h : xs[w]? = some a) :
    ∃ ys zs, xs = ys ++ a :: zs ∧ ∀ b, xs.set w b = ys ++ b :: zs := by
  obtain ⟨hw, rfl⟩ := List.getElem?_eq_some_iff.mp h
  refine ⟨xs.take w, xs.drop (w + 1), ?_, fun b => ?_⟩
  · simp
  · exact List.set_eq_take_append_cons_drop.trans (if_pos hw)

/-- The index of the callback that a worker awaits. -/
def Worker.awaited? : Worker → Option Nat
  | .awaiting index => some index
  | .head | .returned => none

/-- A worker that moves changes the callbacks in flight by its own. -/
theorem filterMap_set_perm {α β : Type} {f : α → Option β} {xs : List α} {w : Nat} {a : α} (b : α)
    (h : xs[w]? = some a) :
    ((f a).toList ++ (xs.set w b).filterMap f).Perm ((f b).toList ++ xs.filterMap f) := by
  obtain ⟨ys, zs, rfl, hset⟩ := split_of_getElem? h
  rw [hset]
  simp only [List.filterMap_append, List.filterMap_cons]
  cases f a <;> cases f b <;> simp only [Option.toList_none, Option.toList_some, List.nil_append, List.cons_append]
  · exact .rfl
  · exact List.perm_middle
  · exact List.perm_middle.symm
  · exact (List.perm_middle.cons _).trans ((List.Perm.swap _ _ _).trans (List.perm_middle.symm.cons _))

theorem mem_set_iff_of_ne {xs : List Worker} {w : Nat} {a b c : Worker} (h : xs[w]? = some a) (hc : c ≠ a)
    (hb : c ≠ b) : c ∈ xs.set w b ↔ c ∈ xs := by
  obtain ⟨ys, zs, rfl, hset⟩ := split_of_getElem? h
  rw [hset]
  simp [hc, hb]

/-! ## The invariant -/

/-- How the shared causes follow from the first event that closed the group. -/
def CausesFollow (events : List (GroupEvent ι ρ ω)) (s : GroupState ρ ω) : Prop :=
  match firstCause events with
  | none => s.signal = none ∧ s.primary = none ∧ s.parentCancellation = none ∧ failuresOf events = []
  | some (true, reason) =>
      s.signal = some reason ∧ s.parentCancellation = s.primary ∧
        ((failuresOf events = [] ∧ s.primary = none) ∨ (failuresOf events ≠ [] ∧ s.primary = some reason))
  | some (false, reason) =>
      s.signal.isSome ∧ s.primary = some reason ∧ s.parentCancellation = none ∧ failuresOf events ≠ []

/-- The state of a running group and the events that led to it. -/
structure Follows (items : List ι) (admission : GroupAdmission ρ) (events : List (GroupEvent ι ρ ω))
    (s : GroupState ρ ω) : Prop where
  workers : s.workers.length = min admission.concurrency items.length
  called : calledIndices events = List.range s.next
  next_le : s.next ≤ items.length
  inFlight : (calledIndices events).Perm (endedIndices events ++ s.inFlight)
  failures : s.failures = failuresOf events
  results_length : s.results.length = items.length
  results : ∀ i v, s.results[i]? = some (some v) ↔ (i, v) ∈ fulfilments events
  causes : CausesFollow events s
  returned : .returned ∈ s.workers → ¬ s.Open items
  quiet : events.Pairwise fun a b => a.Closes → ¬ b.Calls
  items : ∀ w i x, .call w i x ∈ events → items[i]? = some x
  running : s.outcome = none

theorem cause?_isSome {e : GroupEvent ι ρ ω} : e.cause?.isSome ↔ e.Closes := by
  cases e <;> simp [cause?, Closes]

theorem firstCause_snoc (events : List (GroupEvent ι ρ ω)) (e : GroupEvent ι ρ ω) :
    firstCause (events ++ [e]) = (firstCause events).or e.cause? := by
  simp only [firstCause, List.findSome?_append, List.findSome?_cons, List.findSome?_nil]
  cases e.cause? <;> rfl

theorem firstCause_eq_none {events : List (GroupEvent ι ρ ω)} : firstCause events = none ↔ ∀ e ∈ events, ¬ e.Closes := by
  simp only [firstCause, List.findSome?_eq_none_iff, ← cause?_isSome, Option.not_isSome_iff_eq_none]

/-- An open group has seen neither a failure nor an abort. -/
theorem CausesFollow.not_closes {events : List (GroupEvent ι ρ ω)} {s : GroupState ρ ω} (h : CausesFollow events s)
    (hp : s.primary = none) (hs : s.signal = none) : ∀ e ∈ events, ¬ e.Closes := by
  rw [← firstCause_eq_none]
  unfold CausesFollow at h
  split at h
  · assumption
  · simp [hs] at h
  · simp [hp] at h

/-- A group that has seen neither is open as far as the signals go. -/
theorem CausesFollow.signal_none_iff {events : List (GroupEvent ι ρ ω)} {s : GroupState ρ ω} (h : CausesFollow events s) :
    s.signal = none ↔ ∀ e ∈ events, ¬ e.Closes := by
  rw [← firstCause_eq_none]
  unfold CausesFollow at h
  split at h <;> rename_i hc <;> rw [hc]
  · simp [h.1]
  · simp [h.1]
  · simpa using Option.isSome_iff_ne_none.mp h.1

namespace Follows

variable {items : List ι} {admission : GroupAdmission ρ} {events : List (GroupEvent ι ρ ω)} {s : GroupState ρ ω}

theorem nodup (h : Follows items admission events s) : (endedIndices events ++ s.inFlight).Nodup :=
  h.inFlight.nodup_iff.mp (h.called ▸ List.nodup_range)

theorem lt_of_inFlight (h : Follows items admission events s) {i : Nat} (hi : i ∈ s.inFlight) : i < s.next := by
  have hc := h.inFlight.mem_iff.mpr (List.mem_append_right _ hi)
  rwa [h.called, List.mem_range] at hc

theorem notMem_ended (h : Follows items admission events s) {i : Nat} (hi : i ∈ s.inFlight) : i ∉ endedIndices events :=
  fun he => (List.nodup_append.mp h.nodup).2.2 i he i hi rfl

theorem inFlight_length_le (h : Follows items admission events s) : s.inFlight.length ≤ admission.concurrency := by
  have hle : s.inFlight.length ≤ s.workers.length := List.length_filterMap_le _ _
  have := h.workers
  omega

end Follows

theorem mem_inFlight {s : GroupState ρ ω} {w i : Nat} (h : s.workers[w]? = some (.awaiting i)) : i ∈ s.inFlight :=
  List.mem_filterMap.mpr ⟨_, List.mem_of_getElem? h, rfl⟩

theorem mem_ended_of_fulfilment {events : List (GroupEvent ι ρ ω)} {i : Nat} {v : ω} (h : (i, v) ∈ fulfilments events) :
    i ∈ endedIndices events := by
  obtain ⟨e, he, hv⟩ := List.mem_filterMap.mp h
  refine List.mem_filterMap.mpr ⟨e, he, ?_⟩
  cases e <;> simp_all [value?, ended?]

/-! ## Steps -/

section Steps

variable {items : List ι} {admission : GroupAdmission ρ} {events : List (GroupEvent ι ρ ω)} {s s' : GroupState ρ ω}

theorem follows_start (h : (runCapturedGroup items admission : Except (GroupFailure ρ) (GroupState ρ ω)) = .ok s) :
    Follows items admission [] s := by
  rw [runCapturedGroup, bind_eq_ok] at h
  obtain ⟨_, _, h⟩ := h
  cases h
  refine ⟨by simp, rfl, Nat.zero_le _, ?_, rfl, by simp, ?_, ⟨rfl, rfl, rfl, rfl⟩, ?_, .nil, by simp, rfl⟩
  · simp [calledIndices, endedIndices, GroupState.inFlight]
  · intro i v
    simp [fulfilments, List.getElem?_replicate]
  · intro hr
    simp at hr

theorem Follows.call (h : Follows items admission events s) {w : Nat} {item : ι} (hw : s.workers[w]? = some .head)
    (hopen : s.Open items) (hitem : items[s.next]? = some item) :
    Follows items admission (events ++ [.call w s.next item]) (s.called w) := by
  have hstill := h.causes.not_closes hopen.1 hopen.2.1
  have hmove := filterMap_set_perm (f := Worker.awaited?) (.awaiting s.next) hw
  refine ⟨?_, ?_, ?_, ?_, ?_, h.results_length, ?_, ?_, ?_, ?_, ?_, h.running⟩
  · simpa [GroupState.called] using h.workers
  · simpa [called?, GroupState.called, List.range_succ] using h.called
  · exact hopen.2.2
  · simp only [calledIndices_snoc, endedIndices_snoc, called?, ended?, Option.toList_some, Option.toList_none,
      List.append_nil]
    refine ((h.inFlight.append_right _).trans ?_).trans (hmove.symm.append_left (endedIndices events))
    rw [List.append_assoc]
    exact (List.perm_append_comm : (s.inFlight ++ [s.next]).Perm _).append_left _
  · simpa [failure?, GroupState.called] using h.failures
  · intro i v
    simpa [value?, GroupState.called] using h.results i v
  · have hcause := h.causes
    unfold CausesFollow at hcause ⊢
    rw [firstCause_snoc]
    simpa [cause?, failure?, GroupState.called] using hcause
  · intro hr
    have hr' := (mem_set_iff_of_ne hw (by simp) (by simp)).mp hr
    exact absurd hopen (h.returned hr')
  · rw [List.pairwise_append]
    exact ⟨h.quiet, List.pairwise_singleton _ _, fun a ha b _ hclose => absurd hclose (hstill a ha)⟩
  · intro w' i x hx
    rcases List.mem_append.mp hx with hx | hx
    · exact h.items w' i x hx
    · simp only [List.mem_singleton, GroupEvent.call.injEq] at hx
      obtain ⟨-, rfl, rfl⟩ := hx
      exact hitem

/-- An event that is no call changes neither the called indices nor the items. -/
theorem Follows.quiet_snoc (h : Follows items admission events s) {e : GroupEvent ι ρ ω} (he : ¬ e.Calls) :
    (events ++ [e]).Pairwise fun a b => a.Closes → ¬ b.Calls := by
  rw [List.pairwise_append]
  refine ⟨h.quiet, List.pairwise_singleton _ _, fun a _ b hb _ => ?_⟩
  rwa [List.mem_singleton.mp hb]

theorem Follows.items_snoc (h : Follows items admission events s) {e : GroupEvent ι ρ ω} (he : ¬ e.Calls) :
    ∀ w i x, .call w i x ∈ events ++ [e] → items[i]? = some x := by
  intro w i x hx
  rcases List.mem_append.mp hx with hx | hx
  · exact h.items w i x hx
  · rw [← List.mem_singleton.mp hx] at he
    exact absurd trivial he

theorem called?_eq_none {e : GroupEvent ι ρ ω} (he : ¬ e.Calls) : e.called? = none := by
  cases e <;> simp_all [called?, GroupEvent.Calls]

/-- A callback ends: its worker is back at the head of its loop. -/
theorem Follows.inFlight_ended (h : Follows items admission events s) {w i : Nat} {e : GroupEvent ι ρ ω}
    (hw : s.workers[w]? = some (.awaiting i)) (he : ¬ e.Calls) (hi : e.ended? = some i)
    (hs : s'.workers = s.workers.set w .head) :
    (calledIndices (events ++ [e])).Perm (endedIndices (events ++ [e]) ++ s'.inFlight) := by
  have hmove := filterMap_set_perm (f := Worker.awaited?) .head hw
  rw [calledIndices_snoc, endedIndices_snoc, called?_eq_none he, hi, Option.toList_none, List.append_nil,
    Option.toList_some, List.append_assoc]
  refine h.inFlight.trans (.append_left _ ?_)
  unfold GroupState.inFlight
  rw [hs]
  exact hmove.symm

theorem Follows.leave (h : Follows items admission events s) {w : Nat} (hw : s.workers[w]? = some .head)
    (hclosed : ¬ s.Open items) : Follows items admission (events ++ [.leave w]) (s.returned w) := by
  have hmove := filterMap_set_perm (f := Worker.awaited?) .returned hw
  refine ⟨?_, ?_, h.next_le, ?_, ?_, h.results_length, ?_, ?_, fun _ => hclosed, h.quiet_snoc id, h.items_snoc id, h.running⟩
  · simpa [GroupState.returned] using h.workers
  · simpa [called?, GroupState.returned] using h.called
  · simp only [calledIndices_snoc, endedIndices_snoc, called?, ended?, Option.toList_none, List.append_nil]
    exact h.inFlight.trans (hmove.symm.append_left _)
  · simpa [failure?, GroupState.returned] using h.failures
  · intro i v
    simpa [value?, GroupState.returned] using h.results i v
  · have hcause := h.causes
    unfold CausesFollow at hcause ⊢
    rw [firstCause_snoc]
    simpa [cause?, failure?, GroupState.returned] using hcause

theorem Follows.fulfil (h : Follows items admission events s) {w i : Nat} (value : ω)
    (hw : s.workers[w]? = some (.awaiting i)) :
    Follows items admission (events ++ [.fulfil w i value]) (s.fulfilled w i value) := by
  have hflight := mem_inFlight hw
  have hlt : i < s.results.length := by
    have := h.lt_of_inFlight hflight
    have := h.next_le
    have := h.results_length
    omega
  refine ⟨?_, ?_, h.next_le, h.inFlight_ended hw id rfl rfl, ?_, ?_, ?_, ?_, ?_, h.quiet_snoc id, h.items_snoc id,
    h.running⟩
  · simpa [GroupState.fulfilled] using h.workers
  · simpa [called?, GroupState.fulfilled] using h.called
  · simpa [failure?, GroupState.fulfilled] using h.failures
  · simpa [GroupState.fulfilled] using h.results_length
  · intro j v
    have hmem : (j, v) ∈ fulfilments (events ++ [.fulfil w i value]) ↔ (j, v) ∈ fulfilments events ∨ (j = i ∧ v = value) := by
      simp [value?]
    rw [hmem]
    by_cases hj : j = i
    · subst hj
      have hnew : (j, v) ∉ fulfilments events := fun hv => h.notMem_ended hflight (mem_ended_of_fulfilment hv)
      simp [GroupState.fulfilled, List.getElem?_set_self hlt, hnew, eq_comm]
    · simpa [GroupState.fulfilled, List.getElem?_set_ne (Ne.symm hj), hj] using h.results j v
  · have hcause := h.causes
    unfold CausesFollow at hcause ⊢
    rw [firstCause_snoc]
    simpa [cause?, failure?, GroupState.fulfilled] using hcause
  · intro hr
    exact h.returned ((mem_set_iff_of_ne hw (by simp) (by simp)).mp hr)

theorem rejected_workers (f : ρ → ρ) (s : GroupState ρ ω) (w i : Nat) (r : ρ) :
    (s.rejected f w i r).workers = s.workers.set w .head := by
  unfold GroupState.rejected; split <;> rfl

theorem rejected_failures (f : ρ → ρ) (s : GroupState ρ ω) (w i : Nat) (r : ρ) :
    (s.rejected f w i r).failures = s.failures ++ [⟨i, r⟩] := by
  unfold GroupState.rejected; split <;> rfl

theorem rejected_next (f : ρ → ρ) (s : GroupState ρ ω) (w i : Nat) (r : ρ) : (s.rejected f w i r).next = s.next := by
  unfold GroupState.rejected; split <;> rfl

theorem rejected_results (f : ρ → ρ) (s : GroupState ρ ω) (w i : Nat) (r : ρ) :
    (s.rejected f w i r).results = s.results := by
  unfold GroupState.rejected; split <;> rfl

theorem rejected_outcome (f : ρ → ρ) (s : GroupState ρ ω) (w i : Nat) (r : ρ) :
    (s.rejected f w i r).outcome = s.outcome := by
  unfold GroupState.rejected; split <;> rfl

theorem rejected_primary (f : ρ → ρ) (s : GroupState ρ ω) (w i : Nat) (r : ρ) :
    (s.rejected f w i r).primary.isSome := by
  unfold GroupState.rejected; split <;> simp_all

theorem Follows.reject (f : ρ → ρ) (h : Follows items admission events s) {w i : Nat} (reason : ρ)
    (hw : s.workers[w]? = some (.awaiting i)) :
    Follows items admission (events ++ [.reject w i reason]) (s.rejected f w i reason) := by
  have hfail : failuresOf (events ++ [.reject w i reason]) = failuresOf events ++ [⟨i, reason⟩] := by
    simp [failure?]
  refine ⟨?_, ?_, ?_, h.inFlight_ended hw id rfl (rejected_workers ..), ?_, ?_, ?_, ?_, ?_, h.quiet_snoc id,
    h.items_snoc id, ?_⟩
  · simpa [rejected_workers] using h.workers
  · rw [rejected_next]
    simpa [called?] using h.called
  · rw [rejected_next]
    exact h.next_le
  · rw [rejected_failures, h.failures, hfail]
  · rw [rejected_results]
    exact h.results_length
  · intro j v
    rw [rejected_results]
    simpa [value?] using h.results j v
  · have hcause := h.causes
    unfold CausesFollow at hcause ⊢
    rw [firstCause_snoc, hfail]
    revert hcause
    rcases firstCause events with _ | ⟨_ | _, r⟩ <;> intro hcause
    · simp [GroupState.rejected, hcause, cause?]
    · obtain ⟨hs, hp, hc, -⟩ := hcause
      simp [GroupState.rejected, hs, hp, hc]
    · obtain ⟨hs, hc, ⟨-, hp⟩ | ⟨-, hp⟩⟩ := hcause
      · simp [GroupState.rejected, hs, hp]
      · simp [GroupState.rejected, hs, hp, hc]
  · intro _ hopen
    simpa [hopen.1] using rejected_primary f s w i reason
  · rw [rejected_outcome]
    exact h.running

theorem Follows.abort (h : Follows items admission events s) (reason : ρ) :
    Follows items admission (events ++ [.abort reason]) (s.aborted reason) := by
  refine ⟨h.workers, ?_, h.next_le, ?_, ?_, h.results_length, ?_, ?_, ?_, h.quiet_snoc id, h.items_snoc id, h.running⟩
  · simpa [called?, GroupState.aborted] using h.called
  · simpa [called?, ended?, GroupState.aborted, GroupState.inFlight] using h.inFlight
  · simpa [failure?, GroupState.aborted] using h.failures
  · intro i v
    simpa [value?, GroupState.aborted] using h.results i v
  · have hcause := h.causes
    have hfail : failuresOf (events ++ [.abort reason]) = failuresOf events := by simp [failure?]
    unfold CausesFollow at hcause ⊢
    rw [firstCause_snoc, hfail]
    revert hcause
    rcases firstCause events with _ | ⟨_ | _, r⟩ <;> intro hcause
    · simp [GroupState.aborted, hcause, cause?]
    · simpa [GroupState.aborted] using hcause.2
    · simpa [GroupState.aborted, hcause.1] using hcause.2
  · intro _ hopen
    simp [GroupState.Open, GroupState.aborted] at hopen

end Steps

/-! ## Settlement -/

section Settlement

variable {items : List ι} {admission : GroupAdmission ρ} {events : List (GroupEvent ι ρ ω)} {s : GroupState ρ ω}

theorem Follows.inFlight_nil (hjoined : ∀ w ∈ s.workers, w = .returned) : s.inFlight = [] := by
  rw [GroupState.inFlight, List.filterMap_eq_nil_iff]
  intro w hw
  rw [hjoined w hw]

theorem Follows.joined (h : Follows items admission events s) (hjoined : ∀ w ∈ s.workers, w = .returned) :
    (calledIndices events).Perm (endedIndices events) := by
  simpa [Follows.inFlight_nil hjoined] using h.inFlight

/-- Workers return from an open group only when every item was called. -/
theorem Follows.next_eq (h : Follows items admission events s) (hjoined : ∀ w ∈ s.workers, w = .returned)
    (hp : s.primary = none) (hs : s.signal = none) : s.next = items.length := by
  by_contra hne
  have hlt : s.next < items.length := lt_of_le_of_ne h.next_le hne
  have hlen := h.workers
  have hpos := admission.concurrency_pos
  obtain ⟨w, hw⟩ := List.exists_mem_of_length_pos (l := s.workers) (by omega)
  exact h.returned (hjoined w hw ▸ hw) ⟨hp, hs, hlt⟩

/-- A callback ends with a value or with a failure. -/
theorem endedIndices_perm (events : List (GroupEvent ι ρ ω)) :
    (endedIndices events).Perm ((fulfilments events).map Prod.fst ++ (failuresOf events).map TaskFailure.index) := by
  induction events using List.reverseRecOn with
  | nil => exact .rfl
  | append_singleton events e ih =>
      rw [endedIndices_snoc, fulfilments_snoc, failuresOf_snoc, List.map_append, List.map_append]
      cases e <;> simp only [ended?, value?, failure?, Option.toList_none, Option.toList_some, List.map_nil,
        List.append_nil, List.map_cons]
      case fulfil =>
        refine (ih.append_right _).trans ?_
        rw [List.append_assoc, List.append_assoc]
        exact List.perm_append_comm.append_left _
      case reject =>
        rw [← List.append_assoc]
        exact ih.append_right _
      all_goals exact ih

/-- No index fails twice, and none fails that fulfilled. -/
theorem Follows.ended_nodup (h : Follows items admission events s) :
    ((fulfilments events).map Prod.fst ++ (failuresOf events).map TaskFailure.index).Nodup :=
  (endedIndices_perm events).nodup_iff.mp (List.nodup_append.mp h.nodup).1

/-- The failures in index order. -/
theorem Follows.sorted_failures (h : Follows items admission events s) :
    (sortBy TaskFailure.index s.failures).Perm (failuresOf events) ∧
      (sortBy TaskFailure.index s.failures).Pairwise fun a b => a.index < b.index := by
  have hperm : (sortBy TaskFailure.index s.failures).Perm (failuresOf events) :=
    (sortBy_perm _).trans (.of_eq h.failures)
  refine ⟨hperm, ?_⟩
  have hnodup : ((sortBy TaskFailure.index s.failures).map TaskFailure.index).Nodup :=
    (hperm.map _).nodup_iff.mpr (List.nodup_append.mp h.ended_nodup).2.1
  have hle : (sortBy TaskFailure.index s.failures).Pairwise fun a b => a.index ≤ b.index := sortBy_pairwise _
  exact (hle.and (List.pairwise_map.mp hnodup)).imp fun ⟨hle, hne⟩ => lt_of_le_of_ne hle hne

/-- When a failure closed the group it is the first failure. -/
theorem head_failure {reason : ρ} (h : firstCause events = some (false, reason)) :
    ((failuresOf events).head?.map TaskFailure.reason) = some reason := by
  induction events using List.reverseRecOn with
  | nil => simp [firstCause] at h
  | append_singleton events e ih =>
      rw [firstCause_snoc] at h
      rw [failuresOf_snoc]
      cases hc : firstCause events with
      | some cause =>
          have := ih (by simpa [hc] using h)
          cases hf : failuresOf events with
          | nil => simp [hf] at this
          | cons f fs => simpa [hf] using this
      | none =>
          -- nothing failed before, so the closing event is the first failure
          have hno : failuresOf events = [] := by
            rw [failuresOf, List.filterMap_eq_nil_iff]
            intro a ha
            have := firstCause_eq_none.mp hc a ha
            cases a <;> simp_all [Closes, failure?]
          cases e <;> simp_all [cause?, failure?]

end Settlement

/-! ## Outcomes -/

namespace GroupFailure

/-- What is reported. -/
def errors : GroupFailure ρ → List ρ
  | .typeError _ => []
  | .reason r => [r]
  | .aggregate rs _ _ => rs

def cause : GroupFailure ρ → Option ρ
  | .typeError _ => none
  | .reason r => some r
  | .aggregate _ _ r => some r

end GroupFailure

section Outcome

variable {s : GroupState ρ ω}

theorem joined_of_failures {c : ρ} (hne : s.failures ≠ []) (hp : s.primary = some c)
    (hsingle : ∀ f, s.failures = [f] → f.reason = c) :
    ∃ failure, s.joined = .error failure ∧ failure.errors = s.sortedReasons ∧ failure.cause = some c := by
  unfold GroupState.joined
  split
  · contradiction
  · rename_i f hf
    refine ⟨_, rfl, ?_, congrArg some (hsingle f hf)⟩
    simp [GroupFailure.errors, GroupState.sortedReasons, hf, sortBy]
  · rw [hp]
    exact ⟨_, rfl, rfl, rfl⟩

end Outcome

end SecPlatform.Execution
