import SecPlatform.Contracts.Canonical

/-!
# Canonical values of object graphs

A value of the language is a scalar or a reference into a heap, where objects may be shared or lie on a
cycle. `canonicalJson` walks the graph with a stack of open frames; the objects of the open frames are
the ancestors of the value at hand. `canonicalTokens` writes the normalized value with a second stack,
and the chunks coalesce its tokens.
-/

namespace SecPlatform.Contracts

/-! ## Object graphs -/

/-- A value; `exotic` is a bigint, a function or a symbol. -/
inductive JsValue (ρ : Type) where
  | undefined
  | null
  | bool (b : Bool)
  | num (n : JsNumber)
  | str (s : Text)
  | exotic
  | ref (r : ρ)

/-- An own property: data, or an accessor. -/
inductive Slot (ρ : Type) where
  | data (value : JsValue ρ)
  | accessor

/-- The enumerable own properties of a record in the order of `Object.keys`. -/
structure OwnProperties (ρ : Type) where
  slots : List (Text × Slot ρ)
  nodup : (slots.map Prod.fst).Nodup

/-- An object; the element of an array that has no own property is a hole. -/
inductive JsObject (ρ : Type) where
  | array (elements : List (Option (Slot ρ)))
  | record (properties : OwnProperties ρ)
  | proxy
  | otherPrototype

abbrev Heap (ρ : Type) := ρ → JsObject ρ

namespace ObjectGraph

variable {ρ ρ' : Type}

/-! ## Normalization -/

inductive CanonicalFailure where
  | notFinite
  | proxy
  | notPlain
  | circular
  | accessorElement
  | accessorProperty (key : Text)
  | unsupported (key : Text)
  deriving DecidableEq

def CanonicalFailure.message : CanonicalFailure → Text
  | .notFinite => Text.ofString "Canonical JSON numbers must be finite"
  | .proxy => Text.ofString "Canonical JSON rejects proxies"
  | .notPlain => Text.ofString "Canonical JSON only accepts arrays and plain objects"
  | .circular => Text.ofString "Canonical JSON rejects circular references"
  | .accessorElement => Text.ofString "Canonical JSON rejects accessor array elements"
  | .accessorProperty key =>
      Text.cat [Text.ofString "Canonical JSON rejects accessor or unstable property at key \"", key, Text.ofString "\""]
  | .unsupported key =>
      Text.cat [Text.ofString "Canonical JSON rejects unsupported value at key \"", key, Text.ofString "\""]

/-- An open container: what is left of its input and what is written of its output. The first remaining slot
is the one whose value is being normalized. -/
inductive Frame (ρ : Type) where
  | array (input : ρ) (rest : List (Option (Slot ρ))) (output : List Value)
  | object (input : ρ) (rest : List (Text × Slot ρ)) (output : List (Text × Value))

namespace Frame

def input : Frame ρ → ρ
  | .array input _ _ | .object input _ _ => input

/-- The next slot of the output takes a value. -/
def put (value : Value) : Frame ρ → Frame ρ
  | .array input rest output => .array input rest.tail (output ++ [value])
  | .object input ((key, _) :: rest) output => .object input rest (output ++ [(key, value)])
  | .object input [] output => .object input [] output

end Frame

/-- The traversal under way, or its result. -/
inductive Traversal (ρ : Type) where
  | open (top : Frame ρ) (below : List (Frame ρ))
  | closed (value : Value)

/-- A finished value goes into the frame below. -/
def deliver (value : Value) : List (Frame ρ) → Traversal ρ
  | [] => .closed value
  | frame :: below => .open (frame.put value) below

section Normalize

variable [DecidableEq ρ]

/-- `normalize`: a scalar is delivered, a container opens a frame. -/
def normalize (heap : Heap ρ) (frames : List (Frame ρ)) : JsValue ρ → Except CanonicalFailure (Traversal ρ)
  | .null => .ok (deliver .null frames)
  | .str s => .ok (deliver (.str s) frames)
  | .bool b => .ok (deliver (.bool b) frames)
  | .num n =>
      if n.isFinite then .ok (deliver (.num (if n = .zero true then .zero false else n)) frames)
      else .error .notFinite
  | .undefined | .exotic => .error .notPlain
  | .ref r =>
      match heap r with
      | .proxy => .error .proxy
      | .otherPrototype => .error .notPlain
      | .array elements =>
          if r ∈ frames.map Frame.input then .error .circular else .ok (.open (.array r elements []) frames)
      | .record properties =>
          if r ∈ frames.map Frame.input then .error .circular
          else .ok (.open (.object r (sortBy Prod.fst properties.slots) []) frames)

/-- One turn of the loop. -/
def step (heap : Heap ρ) : Traversal ρ → Except CanonicalFailure (Traversal ρ)
  | .closed value => .ok (.closed value)
  | .open (.array _ [] output) below => .ok (deliver (.arr output) below)
  | .open (.object _ [] output) below => .ok (deliver (.obj (Json.ownOrder output)) below)
  | .open (.array r (slot :: rest) output) below =>
      match slot with
      | none => normalize heap (.array r (slot :: rest) output :: below) .null
      | some .accessor => .error .accessorElement
      | some (.data value) => normalize heap (.array r (slot :: rest) output :: below) value
  | .open (.object r ((key, slot) :: rest) output) below =>
      match slot with
      | .accessor => .error (.accessorProperty key)
      | .data .undefined | .data .exotic => .error (.unsupported key)
      | .data value => normalize heap (.object r ((key, slot) :: rest) output :: below) value

/-- The loop, as far as the fuel goes. -/
def run (heap : Heap ρ) : Nat → Except CanonicalFailure (Traversal ρ) → Option (Except CanonicalFailure Value)
  | _, .error e => some (.error e)
  | _, .ok (.closed value) => some (.ok value)
  | 0, .ok (.open ..) => none
  | fuel + 1, .ok traversal => run heap fuel (step heap traversal)

def canonicalJson (heap : Heap ρ) (value : JsValue ρ) (fuel : Nat) : Option (Except CanonicalFailure Value) :=
  run heap fuel (normalize heap [] value)

end Normalize

end ObjectGraph

/-! ## Tokens -/

/-- A container that is being written, with the number of entries written. -/
inductive TokenFrame where
  | array (cursor : Nat) (rest : List Value)
  | object (cursor : Nat) (rest : List (Text × Value))

/-- `open`: the first token of a value and the frame of a container. -/
def openToken : Value → Text × List TokenFrame
  | .arr items => ([unit '['], [.array 0 items])
  | .obj members => ([unit '\x7b'], [.object 0 (Json.ownOrder members)])
  | .null => (Json.render (.null : Value), [])
  | .bool b => (Json.render (.bool b : Value), [])
  | .num n => (Json.render (.num n), [])
  | .str s => (Json.render (.str s : Value), [])

def comma (cursor : Nat) : List Text := if 0 < cursor then [[unit ',']] else []

/-- The tokens of the open frames, as far as the fuel goes. -/
def frameTokens : Nat → List TokenFrame → List Text
  | 0, _ | _, [] => []
  | fuel + 1, .array _ [] :: below => [unit ']'] :: frameTokens fuel below
  | fuel + 1, .object _ [] :: below => [unit '\x7d'] :: frameTokens fuel below
  | fuel + 1, .array cursor (value :: rest) :: below =>
      comma cursor ++ (openToken value).1 :: frameTokens fuel ((openToken value).2 ++ .array (cursor + 1) rest :: below)
  | fuel + 1, .object cursor ((key, value) :: rest) :: below =>
      comma cursor ++ Json.quoted key :: [unit ':'] :: (openToken value).1 ::
        frameTokens fuel ((openToken value).2 ++ .object (cursor + 1) rest :: below)

mutual
/-- The turns of the loop that a value takes after it is opened. -/
def turns : Value → Nat
  | .arr items => turnsItems items + 1
  | .obj members => turnsMembers members + 1
  | .null | .bool _ | .num _ | .str _ => 0

def turnsItems : List Value → Nat
  | [] => 0
  | v :: vs => turns v + 1 + turnsItems vs

def turnsMembers : List (Text × Value) → Nat
  | [] => 0
  | (_, v) :: ms => turns v + 1 + turnsMembers ms
end

/-- The tokens of a normalized value. -/
def normalizedTokens (value : Value) : List Text :=
  (openToken value).1 :: frameTokens (turns value) (openToken value).2

/-- Whole tokens are collected until they reach the batch size. -/
def coalesce (batch : Nat) : Text → List Text → List Text
  | buffered, [] => if 0 < buffered.length then [buffered] else []
  | buffered, token :: tokens =>
      if batch ≤ (buffered ++ token).length then (buffered ++ token) :: coalesce batch [] tokens
      else coalesce batch (buffered ++ token) tokens

def CANONICAL_HASH_BATCH_CODE_UNITS : Nat := 8192

/-- The two token streams are read in step. -/
def equalTokens : List Text → List Text → Bool
  | [], [] => true
  | [], _ :: _ | _ :: _, [] => false
  | a :: as, b :: bs => if a = b then equalTokens as bs else false

/-- A tree in which every number is finite. -/
abbrev FiniteValue := { value : Value // isFinite value }

/-- `canonicalEquals` of two such trees. -/
def canonicalEquals (left right : FiniteValue) : Bool :=
  equalTokens (normalizedTokens (canonical left.val)) (normalizedTokens (canonical right.val))

namespace ObjectGraph

variable {ρ ρ' : Type} [DecidableEq ρ] [DecidableEq ρ']

def canonicalTokens (heap : Heap ρ) (value : JsValue ρ) (fuel : Nat) : Option (Except CanonicalFailure (List Text)) :=
  (canonicalJson heap value fuel).map fun result => result.map normalizedTokens

def canonicalEncodingChunks (batch : Nat) (heap : Heap ρ) (value : JsValue ρ) (fuel : Nat) :
    Option (Except CanonicalFailure (List Text)) :=
  (canonicalTokens heap value fuel).map fun result => result.map (coalesce batch [])

/-- The left value is normalized first. -/
def canonicalEquals (heap : Heap ρ) (left : JsValue ρ) (heap' : Heap ρ') (right : JsValue ρ') (fuel : Nat) :
    Option (Except CanonicalFailure Bool) :=
  match canonicalTokens heap left fuel, canonicalTokens heap' right fuel with
  | some (.error e), _ => some (.error e)
  | some (.ok _), some (.error e) => some (.error e)
  | some (.ok leftTokens), some (.ok rightTokens) => some (.ok (equalTokens leftTokens rightTokens))
  | _, _ => none

end ObjectGraph

end SecPlatform.Contracts
