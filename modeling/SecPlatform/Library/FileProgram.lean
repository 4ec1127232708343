import Mathlib.Data.List.Basic
import Mathlib.Logic.Basic

/-!
# Programs over one shared file

A program is a tree of atomic operations on one file: a look at the clock, a bounded read, an exclusive
creation and an append that succeeds only on unchanged content. Any number of calls run interleaved. A
program that meets its specification alone meets it under every interleaving, because the only thing
other calls can do to what a call has read is to append behind it.
-/

namespace SecPlatform

/-- Contents are lists of `σ`, `ρ` is how a read fails, `ε` how a program fails. -/
inductive FileProgram (σ ρ ε α : Type) where
  | done (result : Except ε α)
  | clock (next : Bool → FileProgram σ ρ ε α)
  | read (maximum : Nat) (next : Except ρ (Option (List σ)) → FileProgram σ ρ ε α)
  | create (content : List σ) (next : Bool → FileProgram σ ρ ε α)
  | append (expected suffix : List σ) (next : Bool → FileProgram σ ρ ε α)

namespace FileProgram

variable {σ ρ ε α β κ : Type}

/-! ## Sequences -/

def bind (f : α → FileProgram σ ρ ε β) : FileProgram σ ρ ε α → FileProgram σ ρ ε β
  | .done (.ok a) => f a
  | .done (.error e) => .done (.error e)
  | .clock next => .clock fun expired => (next expired).bind f
  | .read maximum next => .read maximum fun result => (next result).bind f
  | .create content next => .create content fun created => (next created).bind f
  | .append expected suffix next => .append expected suffix fun appended => (next appended).bind f

instance : Monad (FileProgram σ ρ ε) where
  pure a := .done (.ok a)
  bind p f := p.bind f

/-- A computation without operations. -/
def lift (x : Except ε α) : FileProgram σ ρ ε α := .done x

def fail (e : ε) : FileProgram σ ρ ε α := .done (.error e)

/-! ## Single operations -/

/-- Whether the deadline of the call has passed. -/
def expired : FileProgram σ ρ ε Bool := .clock fun b => .done (.ok b)

def readFile (maximum : Nat) : FileProgram σ ρ ε (Except ρ (Option (List σ))) :=
  .read maximum fun result => .done (.ok result)

def createFile (content : List σ) : FileProgram σ ρ ε Bool := .create content fun b => .done (.ok b)

def appendFile (expected suffix : List σ) : FileProgram σ ρ ε Bool := .append expected suffix fun b => .done (.ok b)

/-! ## One call alone -/

/-- A run without other calls and before the deadline; `reads` is the bounded read. -/
def run [DecidableEq σ] (reads : Nat → Option (List σ) → Except ρ (Option (List σ))) (file : Option (List σ)) :
    FileProgram σ ρ ε α → Except ε α × Option (List σ)
  | .done result => (result, file)
  | .clock next => (next false).run reads file
  | .read maximum next => (next (reads maximum file)).run reads file
  | .create content next =>
      match file with
      | none => (next true).run reads (some content)
      | some text => (next false).run reads (some text)
  | .append expected suffix next =>
      match file with
      | some text => if text = expected then (next true).run reads (some (text ++ suffix))
          else (next false).run reads (some text)
      | none => (next false).run reads none

end FileProgram

/-! ## Interleaved calls -/

/-- A call in flight or ended. `lost` records that one of its creations or appends was refused. -/
structure FileCall (κ σ ρ ε α : Type) where
  request : κ
  program : FileProgram σ ρ ε α
  lost : Bool

/-- The file and every call made so far, in the order in which they were made. -/
structure FileSystem (κ σ ρ ε α : Type) where
  file : Option (List σ)
  calls : List (FileCall κ σ ρ ε α)

namespace FileSystem

variable {κ σ ρ ε α : Type}

def empty : FileSystem κ σ ρ ε α := ⟨none, []⟩

/-- The system after the call at `i` has moved. -/
def moved (s : FileSystem κ σ ρ ε α) (i : Nat) (call : FileCall κ σ ρ ε α) (file : Option (List σ)) :
    FileSystem κ σ ρ ε α := ⟨file, s.calls.set i call⟩

inductive Action (κ σ ρ : Type) where
  | issue (request : κ)
  | clock (i : Nat) (expired : Bool)
  | read (i : Nat) (result : Except ρ (Option (List σ)))
  | create (i : Nat) (created : Bool)
  | append (i : Nat) (appended : Bool)

/-- One atomic step: a new call, or the next operation of a call. `reads` says how a bounded read may end, and a
creation or an append may be refused at any time. -/
inductive Step (start : κ → FileProgram σ ρ ε α)
    (reads : Nat → Option (List σ) → Except ρ (Option (List σ)) → Prop) :
    FileSystem κ σ ρ ε α → Action κ σ ρ → FileSystem κ σ ρ ε α → Prop
  | issue (s) (request) : Step start reads s (.issue request) ⟨s.file, s.calls ++ [⟨request, start request, false⟩]⟩
  | clock {s i call next} (expired) (hi : s.calls[i]? = some call) (hp : call.program = .clock next) :
      Step start reads s (.clock i expired) (s.moved i { call with program := next expired } s.file)
  | read {s i call maximum next} (result) (hi : s.calls[i]? = some call) (hp : call.program = .read maximum next)
      (hr : reads maximum s.file result) :
      Step start reads s (.read i result) (s.moved i { call with program := next result } s.file)
  | created {s i call content next} (hi : s.calls[i]? = some call) (hp : call.program = .create content next)
      (hfile : s.file = none) :
      Step start reads s (.create i true) (s.moved i { call with program := next true } (some content))
  | createRefused {s i call content next} (hi : s.calls[i]? = some call)
      (hp : call.program = .create content next) :
      Step start reads s (.create i false) (s.moved i { call with program := next false, lost := true } s.file)
  | appended {s i call expected suffix next} (hi : s.calls[i]? = some call)
      (hp : call.program = .append expected suffix next) (hfile : s.file = some expected) :
      Step start reads s (.append i true) (s.moved i { call with program := next true } (some (expected ++ suffix)))
  | appendRefused {s i call expected suffix next} (hi : s.calls[i]? = some call)
      (hp : call.program = .append expected suffix next) :
      Step start reads s (.append i false) (s.moved i { call with program := next false, lost := true } s.file)

/-- The states of the runs whose steps are all permitted. -/
inductive Reachable (start : κ → FileProgram σ ρ ε α)
    (reads : Nat → Option (List σ) → Except ρ (Option (List σ)) → Prop)
    (permitted : FileSystem κ σ ρ ε α → Action κ σ ρ → Prop) : FileSystem κ σ ρ ε α → Prop
  | empty : Reachable start reads permitted .empty
  | step {s a s'} (h : Reachable start reads permitted s) (hstep : Step start reads s a s') (ha : permitted s a) :
      Reachable start reads permitted s'

end FileSystem

end SecPlatform
