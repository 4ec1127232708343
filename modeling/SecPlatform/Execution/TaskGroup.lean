import SecPlatform.Library.Number
import SecPlatform.Library.Run
import SecPlatform.Library.Sorting
import SecPlatform.Library.Text

/-!
# Task groups

A group runs its items with a bounded number of workers that share one cursor, one list of failures and
one linked abort signal. A worker tests its loop condition and calls the next item in one step; between
two steps of the group the event loop may let any callback end and the parent signal be aborted.
-/

namespace SecPlatform.Execution

variable {ι ρ ω : Type}

/-! ## Admission -/

/-- The signal a caller passes, with its reason once it is aborted. -/
structure ParentSignal (ρ : Type) where
  reason : Option ρ

structure TaskGroupOptions (ρ : Type) where
  concurrency : Option JsNumber
  signal : Option (ParentSignal ρ)

/-- What a group rejects with: a type error, one reason or several. -/
inductive GroupFailure (ρ : Type) where
  | typeError (message : Text)
  | reason (reason : ρ)
  | aggregate (errors : List ρ) (message : Text) (cause : ρ)

structure GroupAdmission (ρ : Type) where
  concurrency : Nat
  concurrency_pos : 0 < concurrency
  signal : Option (ParentSignal ρ)

def defaultConcurrency : JsNumber := .ofNat 10

def isSafeInteger (n : Nat) : Bool := n ≤ 2 ^ 53 - 1

def throwIfNativeAborted (signal : Option (ParentSignal ρ)) : Except (GroupFailure ρ) Unit :=
  match signal.bind (·.reason) with
  | some reason => .error (.reason reason)
  | none => .ok ()

def captureGroupOptions (options : TaskGroupOptions ρ) : Except (GroupFailure ρ) (GroupAdmission ρ) := do
  throwIfNativeAborted options.signal
  match (options.concurrency.getD defaultConcurrency).toNat? with
  | some n =>
      if h : isSafeInteger n ∧ 0 < n then .ok ⟨n, h.2, options.signal⟩
      else .error (.typeError (Text.ofString "Task group concurrency must be a positive safe integer"))
  | none => .error (.typeError (Text.ofString "Task group concurrency must be a positive safe integer"))

/-! ## The state of a group -/

/-- A worker is at the head of its loop, waits for the callback it called, or has returned. -/
inductive Worker where
  | head
  | awaiting (index : Nat)
  | returned
  deriving DecidableEq

structure TaskFailure (ρ : Type) where
  index : Nat
  reason : ρ
  deriving DecidableEq

/-- `signal` is the reason of the linked signal once the parent or the group's own controller is aborted. -/
structure GroupState (ρ ω : Type) where
  signal : Option ρ
  results : List (Option ω)
  failures : List (TaskFailure ρ)
  primary : Option ρ
  parentCancellation : Option ρ
  next : Nat
  workers : List Worker
  outcome : Option (Except (GroupFailure ρ) (List (Option ω)))

namespace GroupState

/-- The condition of the worker's loop. -/
def Open (s : GroupState ρ ω) (items : List ι) : Prop :=
  s.primary = none ∧ s.signal = none ∧ s.next < items.length

/-- The indices of the callbacks in flight. -/
def inFlight (s : GroupState ρ ω) : List Nat :=
  s.workers.filterMap fun
    | .awaiting index => some index
    | .head | .returned => none

/-- `index = next++` and the call of the item. -/
def called (s : GroupState ρ ω) (worker : Nat) : GroupState ρ ω :=
  { s with next := s.next + 1, workers := s.workers.set worker (.awaiting s.next) }

def returned (s : GroupState ρ ω) (worker : Nat) : GroupState ρ ω :=
  { s with workers := s.workers.set worker .returned }

def fulfilled (s : GroupState ρ ω) (worker index : Nat) (value : ω) : GroupState ρ ω :=
  { s with results := s.results.set index (some value), workers := s.workers.set worker .head }

/-- The parent signal is aborted; a signal that is aborted keeps its reason. -/
def aborted (s : GroupState ρ ω) (reason : ρ) : GroupState ρ ω := { s with signal := s.signal.or (some reason) }

/-- The catch block. As long as there is no primary cause the controller is not aborted, so an aborted signal is
the parent's. `controllerReason` is the reason a controller takes from the value it is aborted with. -/
def rejected (controllerReason : ρ → ρ) (s : GroupState ρ ω) (worker index : Nat) (reason : ρ) :
    GroupState ρ ω :=
  let failures := s.failures ++ [⟨index, reason⟩]
  let workers := s.workers.set worker .head
  match s.primary with
  | some _ => { s with failures, workers }
  | none =>
      let primary := s.signal.getD reason
      { s with
        failures, workers, primary := some primary, parentCancellation := s.signal
        signal := s.signal.or (some (controllerReason primary)) }

def joinMessage : Text := Text.ofString "Task group failed after joining all started work"

/-- The reasons of the failures in index order. -/
def sortedReasons (s : GroupState ρ ω) : List ρ := (sortBy TaskFailure.index s.failures).map TaskFailure.reason

/-- The end of the group when no parent cancellation has to be added to the failures. -/
def joined (s : GroupState ρ ω) : Except (GroupFailure ρ) (List (Option ω)) :=
  match s.failures with
  | [] =>
      match s.signal with
      | some reason => .error (.reason reason)
      | none => .ok s.results
  | [failure] => .error (.reason failure.reason)
  | _ :: _ :: _ =>
      match s.primary with
      | some cause => .error (.aggregate s.sortedReasons joinMessage cause)
      | none => .error (.typeError (Text.ofString "Cannot read properties of undefined (reading 'reason')"))

/-- What follows `Promise.all`. -/
def settlement [DecidableEq ρ] (s : GroupState ρ ω) : Except (GroupFailure ρ) (List (Option ω)) :=
  match s.parentCancellation with
  | some cancelled =>
      if s.failures.any (·.reason = cancelled) then s.joined
      else .error (.aggregate (cancelled :: s.sortedReasons) joinMessage cancelled)
  | none => s.joined

def settled [DecidableEq ρ] (s : GroupState ρ ω) : GroupState ρ ω := { s with outcome := some s.settlement }

end GroupState

/-- The state before any worker has taken a step. -/
def runCapturedGroup (items : List ι) (admission : GroupAdmission ρ) :
    Except (GroupFailure ρ) (GroupState ρ ω) := do
  throwIfNativeAborted admission.signal
  return {
    signal := none
    results := List.replicate items.length none
    failures := []
    primary := none
    parentCancellation := none
    next := 0
    workers := List.replicate (min admission.concurrency items.length) .head
    outcome := none }

/-- `mapTaskGroup` and `runTaskGroup` up to the first step of a worker. -/
def mapTaskGroup (items : List ι) (options : TaskGroupOptions ρ) :
    Except (GroupFailure ρ) (GroupAdmission ρ × GroupState ρ ω) := do
  let admission ← captureGroupOptions options
  let s ← runCapturedGroup items admission
  return (admission, s)

/-! ## Steps -/

inductive GroupEvent (ι ρ ω : Type) where
  | call (worker index : Nat) (item : ι)
  | leave (worker : Nat)
  | fulfil (worker index : Nat) (value : ω)
  | reject (worker index : Nat) (reason : ρ)
  | abort (reason : ρ)
  | settle
  deriving DecidableEq

/-- One step of the group or of its environment; the group ends with its settlement. -/
inductive GroupStep [DecidableEq ρ] (controllerReason : ρ → ρ) (items : List ι) (admission : GroupAdmission ρ) :
    GroupState ρ ω → GroupEvent ι ρ ω → GroupState ρ ω → Prop
  | call {s w item} (hw : s.workers[w]? = some .head) (hopen : s.Open items) (hitem : items[s.next]? = some item) :
      GroupStep controllerReason items admission s (.call w s.next item) (s.called w)
  | leave {s w} (hw : s.workers[w]? = some .head) (hclosed : ¬ s.Open items) :
      GroupStep controllerReason items admission s (.leave w) (s.returned w)
  | fulfil {s w i} (value) (hw : s.workers[w]? = some (.awaiting i)) :
      GroupStep controllerReason items admission s (.fulfil w i value) (s.fulfilled w i value)
  | reject {s w i} (reason) (hw : s.workers[w]? = some (.awaiting i)) :
      GroupStep controllerReason items admission s (.reject w i reason) (s.rejected controllerReason w i reason)
  | abort {s} (reason) (hparent : admission.signal.isSome) (hrunning : s.outcome = none) :
      GroupStep controllerReason items admission s (.abort reason) (s.aborted reason)
  | settle {s} (hjoined : ∀ w ∈ s.workers, w = .returned) (hrunning : s.outcome = none) :
      GroupStep controllerReason items admission s .settle s.settled

/-- The runs of a group. -/
def GroupRun [DecidableEq ρ] (controllerReason : ρ → ρ) (items : List ι) (admission : GroupAdmission ρ) :
    List (GroupEvent ι ρ ω) → GroupState ρ ω → Prop :=
  Run (GroupStep controllerReason items admission) fun s => runCapturedGroup items admission = .ok s

end SecPlatform.Execution
