import SecPlatform.Assurance.VerificationResult
import SecPlatform.Contracts.Lemmas.ExactJsonAgreement
import SecPlatform.Contracts.LogicalPath

/-!
# Ordinary data of an Action

Runtime callers hand over plain data only: finite numbers, arrays of bounded length and objects without a
`toJSON` member. The encoding writes the members of every object in the order of their keys.
-/

namespace SecPlatform.VerificationAction

open Contracts

/-! ## Failures -/

inductive BoundedProcessDiagnosticFailureKind where
  | corruptObject
  | resourceExhausted
  deriving DecidableEq, Repr

inductive VerificationActionJournalFailureKind where
  | corruptJournal
  | recoveryRequired
  deriving DecidableEq, Repr

inductive RuntimeStateJournalReadFailureKind where
  | deadlineExhausted
  | maximumBytesExceeded
  deriving DecidableEq, Repr

/-- What a call throws: an error of the contract, of a document, of a diagnostic object, of the journal, of a bounded read,
of the language, or whatever the file system throws. -/
inductive ActionFailure where
  | error (message : Text)
  | exactJson (failure : ExactJsonFailure)
  | diagnostic (kind : BoundedProcessDiagnosticFailureKind) (message : Text)
  | journal (kind : VerificationActionJournalFailureKind) (message : Text)
  | read (kind : RuntimeStateJournalReadFailureKind)
  | typeError
  | rangeError
  | fileSystem
  deriving DecidableEq

/-- `fail(label, message)` of the Action contract. -/
def refusal (label message : Text) : ActionFailure := .error (Text.cat [label, " ", message])

def refuse {α : Type} (label message : Text) : Except ActionFailure α := .error (refusal label message)

/-! ## Ordinary data -/

def maximumArrayLength : Nat := 4096

mutual
/-- `assertOrdinaryData`; that objects and arrays are plain is guaranteed by their type. -/
def assertOrdinaryData (label : Text) : Value → Except ActionFailure Unit
  | .null | .str _ | .bool _ => .ok ()
  | .num n => require n.isFinite (refusal label "must be a finite number.")
  | .arr items => do
      require (items.length ≤ maximumArrayLength) (refusal label "length is not a bounded canonical array length.")
      assertOrdinaryItems label 0 items
  | .obj members => assertOrdinaryMembers label members

def assertOrdinaryItems (label : Text) (index : Nat) : List Value → Except ActionFailure Unit
  | [] => .ok ()
  | item :: items => do
      assertOrdinaryData (Text.cat [label, "[", Text.ofNat index, "]"]) item
      assertOrdinaryItems label (index + 1) items

def assertOrdinaryMembers (label : Text) : List (Text × Value) → Except ActionFailure Unit
  | [] => .ok ()
  | (key, value) :: members => do
      require (key ≠ "toJSON") (refusal label "toJSON is forbidden.")
      assertOrdinaryData (Text.cat [label, ".", key]) value
      assertOrdinaryMembers label members
end

def ordinaryRecord (value : Value) (label : Text) : Except ActionFailure (List (Text × Value)) := do
  assertOrdinaryData label value
  match value with
  | .obj members => return members
  | _ => refuse label "must be a canonical ordinary object."

/-- A list that an array of ordinary data can hold. -/
abbrev BoundedList (α : Type) : Type := { items : List α // items.length ≤ maximumArrayLength }

def ordinaryArray (value : Value) (label : Text) : Except ActionFailure (BoundedList Value) := do
  assertOrdinaryData label value
  match value with
  | .arr items =>
      if h : items.length ≤ maximumArrayLength then return ⟨items, h⟩ else refuse label "length is not bounded."
  | _ => refuse label "must be a canonical ordinary array."

/-- `Array.prototype.map`, with the index of each item. -/
def BoundedList.mapIndexed {α β : Type} (f : Nat → α → Except ActionFailure β) (items : BoundedList α) :
    Except ActionFailure (BoundedList β) :=
  match h : items.val.zipIdx.mapM fun (item, index) => f index item with
  | .ok mapped =>
      .ok ⟨mapped, by
        have hlength := (mapM_eq_ok.mp h).length_eq
        rw [List.length_zipIdx] at hlength
        exact hlength ▸ items.2⟩
  | .error e => .error e

/-- `${label}[${index}]`. -/
def indexed (label : Text) (index : Nat) : Text := Text.cat [label, "[", Text.ofNat index, "]"]

def exactKeys (members : List (Text × Value)) (keys : List Text) (label : Text) : Except ActionFailure Unit :=
  let expected := sortBy id keys
  require (sortBy id (members.map Prod.fst) = expected)
    (refusal label (Text.cat ["must contain exactly: ", Text.joinWith ", " expected, "."]))

/-- A member of a record whose keys have been checked. -/
def member (members : List (Text × Value)) (key : Text) : Value := (Json.get? key members).getD .null

/-! ## Texts and digests -/

/-- A code unit outside of `/[\u0000-\u001f]/u`. -/
def isNoControl (c : CodeUnit) : Bool := 0x20 ≤ c

def isBoundedText (value : Text) : Bool := decide (value ≠ []) && decide (value.length ≤ 512) && value.all isNoControl

abbrev BoundedText : Type := { value : Text // isBoundedText value }

/-- A text that must satisfy a predicate. -/
def checkedText {p : Text → Bool} (value : Value) (failure : ActionFailure) : Except ActionFailure { t : Text // p t } :=
  match value with
  | .str t => if h : p t then .ok ⟨t, h⟩ else .error failure
  | _ => .error failure

def text (value : Value) (label : Text) : Except ActionFailure BoundedText :=
  checkedText value (refusal label "must be a bounded non-empty text value.")

def digest (value : Value) (label : Text) : Except ActionFailure Digest :=
  checkedText value (refusal label "must be a SHA-256 content digest.")

def isRelativeInputPath (value : Text) : Bool :=
  decide (value ≠ []) && !value.contains (unit '\\') && decide (posixNormalize value = value) &&
    decide (value ≠ Text.ofString ".") && decide (value ≠ Text.ofString "..") && !decide (Text.ofString "../" <+: value) &&
    !posixIsAbsolute value

abbrev RelativeInputPath : Type := { value : Text // isRelativeInputPath value }

def relativeInputPath (value : Value) (label : Text) : Except ActionFailure RelativeInputPath :=
  checkedText value (refusal label "must be one canonical repository-relative path.")

def isRelativeWorkingDirectory (value : Text) : Bool :=
  decide (value ≠ []) && !value.contains (unit '\\') && decide (posixNormalize value = value) &&
    decide (value ≠ Text.ofString "..") && !decide (Text.ofString "../" <+: value) && !posixIsAbsolute value &&
    !hasWindowsDrivePrefix value && !decide (Text.ofString "//" <+: value) &&
    (decide (value = Text.ofString ".") || decide (value.getLast? ≠ some (unit '/')))

abbrev RelativeWorkingDirectory : Type := { value : Text // isRelativeWorkingDirectory value }

def relativeWorkingDirectory (value : Value) (label : Text) : Except ActionFailure RelativeWorkingDirectory :=
  checkedText value
    (refusal label "must be a canonical repository-relative directory or \x60.\x60 repository-root sentinel.")

/-! ## Sorted lists without repeated keys -/

/-- The second of two neighbours with one key. -/
def adjacentDuplicate {α : Type} (key : α → Text) : List α → Option α
  | a :: b :: rest => if key a = key b then some b else adjacentDuplicate key (b :: rest)
  | _ => none

/-- A bounded list whose keys ascend. -/
abbrev AscendingList {α : Type} (key : α → Text) : Type :=
  { items : List α // items.length ≤ maximumArrayLength ∧ items.Pairwise fun a b => key a < key b }

theorem pairwise_of_adjacentDuplicate {α : Type} {key : α → Text} {items : List α}
    (hsorted : items.Pairwise fun a b => key a ≤ key b) (h : adjacentDuplicate key items = none) :
    items.Pairwise fun a b => key a < key b := by
  induction items with
  | nil => exact .nil
  | cons a rest ih =>
      cases rest with
      | nil => exact List.pairwise_singleton _ _
      | cons b rest =>
          rw [adjacentDuplicate] at h
          split at h
          · cases h
          · rename_i hne
            have hrest := ih (List.pairwise_cons.mp hsorted).2 h
            have hlt : key a < key b := lt_of_le_of_ne ((List.pairwise_cons.mp hsorted).1 b List.mem_cons_self) hne
            refine List.pairwise_cons.mpr ⟨fun c hc => ?_, hrest⟩
            rcases List.mem_cons.mp hc with rfl | hc
            · exact hlt
            · exact hlt.trans ((List.pairwise_cons.mp hrest).1 c hc)

/-- Sorts by a key, and refuses a key that occurs twice. -/
def sortedUnique {α : Type} (key : α → Text) (duplicate : α → ActionFailure) (items : BoundedList α) :
    Except ActionFailure (AscendingList key) :=
  match h : adjacentDuplicate key (sortBy key items.val) with
  | some item => .error (duplicate item)
  | none =>
      .ok ⟨sortBy key items.val, (length_sortBy items.val).le.trans items.2,
        pairwise_of_adjacentDuplicate (sortBy_pairwise _) h⟩

/-! ## Encoding -/

mutual
/-- The value with the members of every object in the order of their keys, and `-0` as `0`. -/
def sorted : Value → Value
  | .num n => .num (if n = .zero true then .zero false else n)
  | .arr items => .arr (sortedItems items)
  | .obj members => .obj (sortBy Prod.fst (sortedMembers members))
  | .null => .null
  | .bool b => .bool b
  | .str s => .str s

def sortedItems : List Value → List Value
  | [] => []
  | v :: vs => sorted v :: sortedItems vs

def sortedMembers : List (Text × Value) → List (Text × Value)
  | [] => []
  | (k, v) :: ms => (k, sorted v) :: sortedMembers ms
end

/-- `encodeCanonical` of ordinary data. -/
def encodeCanonical (value : Value) : Text := Json.render (sorted value)

def encodeVerificationActionData (value : Value) : Except ActionFailure Text := do
  assertOrdinaryData "canonical serialization" value
  return encodeCanonical value

/-- `parseExactJson` with the keys of the root object, as a total function: the scanner ends. -/
def exactDocument (source label : Text) (rootObjectKeys : List Text) : Except ActionFailure Value :=
  ((parseExactJson source label (some ⟨rootObjectKeys⟩) none).get
    (parseExactJson_isSome source label (some ⟨rootObjectKeys⟩) none)).mapError .exactJson

end SecPlatform.VerificationAction
