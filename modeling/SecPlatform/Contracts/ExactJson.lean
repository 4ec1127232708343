import SecPlatform.Library.Json

/-!
# Exact JSON documents

The scanner of `contracts/exact-json.ts`: one pass over the text with an explicit stack of containers,
which sees the repeated keys that `JSON.parse` drops. A cursor is an offset with the text from there on.
-/

namespace SecPlatform.Contracts

inductive ExactJsonFailureKind where
  | depthLimit
  | duplicateKey
  | inputTooLarge
  | invalidJson
  | invalidUtf8
  deriving DecidableEq, Repr

/-- What a call throws: an `ExactJsonError`, or a `TypeError` for an argument that is not admitted. -/
inductive ExactJsonFailure where
  | exactJson (kind : ExactJsonFailureKind) (message : Text) (offset : Nat)
  | typeError (message : Text)
  deriving DecidableEq

/-- `offset`, with `source.slice(offset)`. -/
structure Cursor where
  offset : Nat
  rest : Text
  deriving DecidableEq

namespace Cursor

/-- `offset += n`; past the end nothing is left. -/
def advance (n : Nat) (c : Cursor) : Cursor := ⟨c.offset + n, c.rest.drop n⟩

/-- Advances over the code units in front that satisfy `p`. -/
def skip (p : CodeUnit → Bool) (c : Cursor) : Cursor :=
  ⟨c.offset + (c.rest.takeWhile p).length, c.rest.dropWhile p⟩

/-- `source[offset]`. -/
def head? (c : Cursor) : Option CodeUnit := c.rest.head?

end Cursor

/-! ## Container frames -/

inductive FrameState where
  | first
  | next
  | after
  deriving DecidableEq, Repr

inductive FrameKind where
  | object (keys : List Text)
  | array
  deriving DecidableEq

structure ContainerFrame where
  kind : FrameKind
  state : FrameState
  deriving DecidableEq

namespace FrameKind

def name : FrameKind → Text
  | .object _ => "object"
  | .array => "array"

/-- The punctuation that ends a container. -/
def «end» : FrameKind → CodeUnit
  | .object _ => unit '\x7d'
  | .array => unit ']'

end FrameKind

/-- The scanner between two steps, the innermost frame first. -/
structure Scanner where
  cursor : Cursor
  frames : List ContainerFrame
  deriving DecidableEq

section Scan

variable (label : Text) (maximumDepth : Option Nat)

def fail {α : Type} (kind : ExactJsonFailureKind) (message : List Text) (offset : Nat) :
    Except ExactJsonFailure α :=
  .error (.exactJson kind (Text.cat (label :: Text.ofString " " :: message)) offset)

def skipWhitespace (c : Cursor) : Cursor := c.skip Json.isSpace

/-- The loop of `readStringToken`, behind the opening quote; the token it returns starts there as well. -/
def stringTokenLoop (start : Nat) : Nat → Text → Except ExactJsonFailure (Text × Cursor)
  | offset, [] =>
      fail label .invalidJson ["has an unterminated string at offset ", Text.ofNat start] offset
  | offset, character :: rest =>
      if character = 0x22 then .ok ([character], ⟨offset + 1, rest⟩)
      else if character = 0x5C then
        match rest with
        | [] => fail label .invalidJson ["has an incomplete escape at offset ", Text.ofNat (offset + 1)] (offset + 1)
        | e :: rest =>
            if e = unit 'u' then
              -- five code units are passed over unread; the loop ends when they are not there
              match rest with
              | h₁ :: h₂ :: h₃ :: h₄ :: rest => do
                  let (token, c) ← stringTokenLoop start (offset + 6) rest
                  return (character :: e :: h₁ :: h₂ :: h₃ :: h₄ :: token, c)
              | _ =>
                  fail label .invalidJson ["has an unterminated string at offset ", Text.ofNat start] (offset + 6)
            else do
              let (token, c) ← stringTokenLoop start (offset + 2) rest
              return (character :: e :: token, c)
      else if character < 0x20 then
        fail label .invalidJson ["has an unescaped control character at offset ", Text.ofNat offset] (offset + 1)
      else do
        let (token, c) ← stringTokenLoop start (offset + 1) rest
        return (character :: token, c)

def readStringToken (c : Cursor) : Except ExactJsonFailure (Text × Cursor) :=
  match c.rest with
  | character :: rest =>
      if character = 0x22 then do
        let (token, c) ← stringTokenLoop label c.offset (c.offset + 1) rest
        return (character :: token, c)
      else fail label .invalidJson ["expected a string at offset ", Text.ofNat c.offset] c.offset
  | [] => fail label .invalidJson ["expected a string at offset ", Text.ofNat c.offset] c.offset

/-- `parseObjectKey`; `offset` is where the scanner stands behind the token. -/
def parseObjectKey (token : Text) (tokenOffset offset : Nat) : Except ExactJsonFailure Text :=
  match Json.parse (ν := JsNumber) token with
  | some (.str key) => .ok key
  | some _ => fail label .invalidJson ["has a non-string key at offset ", Text.ofNat tokenOffset] offset
  | none => fail label .invalidJson ["has an invalid object key at offset ", Text.ofNat tokenOffset] offset

/-- What ends a bare token. -/
def isValueEnd (c : CodeUnit) : Bool := Json.isSpace c || c = unit ',' || c = unit ']' || c = unit '\x7d'

/-- `readValue`: a container only opens, everything else is passed over. -/
def readValue (c : Cursor) (frames : List ContainerFrame) : Except ExactJsonFailure Scanner :=
  let c := skipWhitespace c
  match c.rest with
  | [] => fail label .invalidJson ["expected a value at offset ", Text.ofNat c.offset] c.offset
  | character :: _ =>
      if character = unit '\x7b' ∨ character = unit '[' then
        match maximumDepth with
        | some maximum =>
            if maximum ≤ frames.length then
              fail label .depthLimit ["exceeds its maximum container depth of ", Text.ofNat maximum] c.offset
            else .ok ⟨c.advance 1, ⟨if character = unit '\x7b' then .object [] else .array, .first⟩ :: frames⟩
        | none => .ok ⟨c.advance 1, ⟨if character = unit '\x7b' then .object [] else .array, .first⟩ :: frames⟩
      else if character = 0x22 then do
        let (_, c) ← readStringToken label c
        return ⟨c, frames⟩
      else
        let e := c.skip (fun u => !isValueEnd u)
        if e.offset = c.offset then
          fail label .invalidJson ["expected a value at offset ", Text.ofNat c.offset] c.offset
        else .ok ⟨e, frames⟩

/-- The key of a member with its colon, and the keys of the object with it. -/
def readKey (keys : List Text) (c : Cursor) : Except ExactJsonFailure (List Text × Cursor) := do
  let tokenOffset := c.offset
  let (token, c) ← readStringToken label c
  let key ← parseObjectKey label token tokenOffset c.offset
  if key ∈ keys then
    fail label .duplicateKey ["contains duplicate key ", Json.quoted key] c.offset
  else
    let c := skipWhitespace c
    if c.head? = some (unit ':') then return (key :: keys, c.advance 1)
    else fail label .invalidJson ["expected ':' at offset ", Text.ofNat c.offset] c.offset

/-- One turn of the loop over the innermost frame. -/
def scanStep (c : Cursor) (frame : ContainerFrame) (below : List ContainerFrame) :
    Except ExactJsonFailure Scanner :=
  let c := skipWhitespace c
  if c.rest = [] ∧ frame.state ≠ .after then
    fail label .invalidJson ["has an unterminated ", frame.kind.name] c.offset
  else match frame.state with
  | .after =>
      if c.head? = some frame.kind.end then .ok ⟨c.advance 1, below⟩
      else if c.head? ≠ some (unit ',') then
        fail label .invalidJson ["expected ',' or '", [frame.kind.end], "' at offset ", Text.ofNat c.offset] c.offset
      else
        let c := skipWhitespace (c.advance 1)
        if c.head? = some frame.kind.end then
          fail label .invalidJson ["contains a trailing comma at offset ", Text.ofNat c.offset] c.offset
        else .ok ⟨c, { frame with state := .next } :: below⟩
  | state =>
      if state = .first ∧ c.head? = some frame.kind.end then .ok ⟨c.advance 1, below⟩
      else match frame.kind with
      | .array => readValue label maximumDepth c ({ frame with state := .after } :: below)
      | .object keys => do
          let (keys, c) ← readKey label keys c
          readValue label maximumDepth c (⟨.object keys, .after⟩ :: below)

/-- `while (frames.length > 0)`, with a bound on its turns; `none` when the bound is reached first. -/
def scanLoop : Nat → Scanner → Option (Except ExactJsonFailure Cursor)
  | _, ⟨c, []⟩ => some (.ok c)
  | 0, ⟨_, _ :: _⟩ => none
  | fuel + 1, ⟨c, frame :: below⟩ =>
      match scanStep label maximumDepth c frame below with
      | .error e => some (.error e)
      | .ok scanner => scanLoop fuel scanner

end Scan

/-! ## The document -/

/-- `Number.isSafeInteger(value) && value > 0`. -/
def positiveSafeInteger? (value : JsNumber) : Option Nat :=
  value.toNat?.filter fun n => 0 < n ∧ n < 2 ^ 53

/-- The exact set of root keys a caller may ask for. -/
structure ExactJsonContract where
  rootObjectKeys : List Text

section Parse

variable {ν : Type} [JsonNumber ν]

/-- The check of the root keys. -/
def checkRootKeys (label : Text) (contract : ExactJsonContract) (value : Json ν) (offset : Nat) :
    Except ExactJsonFailure Unit :=
  if [] ∈ contract.rootObjectKeys ∨ ¬ contract.rootObjectKeys.Nodup then
    .error (.typeError (Text.cat [label, " exact-key contract is invalid"]))
  else match value with
  | .obj members =>
      match members.find? fun m => m.1 ∉ contract.rootObjectKeys with
      | some (key, _) => fail label .invalidJson ["contains unsupported root key ", Json.quoted key] offset
      | none =>
          match contract.rootObjectKeys.find? fun key => key ∉ members.map Prod.fst with
          | some key => fail label .invalidJson ["is missing required root key ", Json.quoted key] offset
          | none => .ok ()
  | _ => fail label .invalidJson ["must contain one root object"] offset

/-- What follows the loop: no trailing data, `JSON.parse`, and the root keys. -/
def finishDocument (source label : Text) (contract : Option ExactJsonContract) (c : Cursor) :
    Except ExactJsonFailure (Json ν) := do
  let c := skipWhitespace c
  if c.rest ≠ [] then
    fail label .invalidJson ["contains trailing data at offset ", Text.ofNat c.offset] c.offset
  else
    match Json.parse source with
    | none => fail label .invalidJson ["is not valid JSON"] c.offset
    | some value =>
        match contract with
        | none => .ok value
        | some contract => do
            checkRootKeys label contract value c.offset
            return value

/-- The scan of a whole text; every turn of the loop consumes a code unit, so the length is bound enough. -/
def scanDocument (source label : Text) (maximumDepth : Option Nat) : Option (Except ExactJsonFailure Cursor) :=
  match readValue label maximumDepth ⟨0, source⟩ [] with
  | .error e => some (.error e)
  | .ok scanner => scanLoop label maximumDepth source.length scanner

/-- `parseExactJson`. The result is `none` only if the scanner does not end within its bound. -/
def parseExactJson (source label : Text) (contract : Option ExactJsonContract) (maximumDepth : Option JsNumber) :
    Option (Except ExactJsonFailure (Json ν)) :=
  match maximumDepth.map positiveSafeInteger? with
  | some none =>
      some (.error (.typeError (Text.cat [label, " maximumDepth must be one positive safe integer"])))
  | depth =>
      (scanDocument source label depth.join).map fun result => result.bind (finishDocument source label contract)

end Parse

end SecPlatform.Contracts
