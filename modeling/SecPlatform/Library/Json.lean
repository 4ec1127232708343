import SecPlatform.Library.Number
import SecPlatform.Library.Sorting

/-!
# JSON values and their text

A value is generic in its numbers. `Json.render` writes the text of a value, `Json.document` reads the
tree of a text: members stay in document order and repeated keys stay visible. The reading recursion
is bounded by fuel; `Lemmas/JsonFuel.lean` shows that the bound never decides.
-/

namespace SecPlatform

/-- What JSON text needs of a type of numbers. -/
class JsonNumber (ν : Type) where
  /-- The value of a literal. -/
  read : NumberLiteral → ν
  /-- The literal that stands for a number; a number without one is written `null`. -/
  literal? : ν → Option NumberLiteral

instance : JsonNumber JsNumber := ⟨JsNumber.read, JsNumber.literal?⟩

inductive Json (ν : Type) where
  | null
  | bool (b : Bool)
  | num (n : ν)
  | str (s : Text)
  | arr (items : List (Json ν))
  | obj (members : List (Text × Json ν))

namespace Json

variable {ν : Type}

/-! ## Equality -/

mutual
def decEq [DecidableEq ν] : (a b : Json ν) → Decidable (a = b)
  | .null, .null => isTrue rfl
  | .bool a, .bool b => decidable_of_iff (a = b) (by simp)
  | .num a, .num b => decidable_of_iff (a = b) (by simp)
  | .str a, .str b => decidable_of_iff (a = b) (by simp)
  | .arr a, .arr b => @decidable_of_iff _ (a = b) (by simp) (decEqItems a b)
  | .obj a, .obj b => @decidable_of_iff _ (a = b) (by simp) (decEqMembers a b)
  | .null, .bool _ | .null, .num _ | .null, .str _ | .null, .arr _ | .null, .obj _
  | .bool _, .null | .bool _, .num _ | .bool _, .str _ | .bool _, .arr _ | .bool _, .obj _
  | .num _, .null | .num _, .bool _ | .num _, .str _ | .num _, .arr _ | .num _, .obj _
  | .str _, .null | .str _, .bool _ | .str _, .num _ | .str _, .arr _ | .str _, .obj _
  | .arr _, .null | .arr _, .bool _ | .arr _, .num _ | .arr _, .str _ | .arr _, .obj _
  | .obj _, .null | .obj _, .bool _ | .obj _, .num _ | .obj _, .str _ | .obj _, .arr _ =>
      isFalse (by simp)

def decEqItems [DecidableEq ν] : (a b : List (Json ν)) → Decidable (a = b)
  | [], [] => isTrue rfl
  | [], _ :: _ | _ :: _, [] => isFalse (by simp)
  | a :: as, b :: bs =>
      match decEq a b, decEqItems as bs with
      | isTrue h, isTrue hs => isTrue (by rw [h, hs])
      | isFalse h, _ => isFalse (by simp [h])
      | _, isFalse hs => isFalse (by simp [hs])

def decEqMembers [DecidableEq ν] : (a b : List (Text × Json ν)) → Decidable (a = b)
  | [], [] => isTrue rfl
  | [], _ :: _ | _ :: _, [] => isFalse (by simp)
  | (k, a) :: as, (l, b) :: bs =>
      if hk : k = l then
        match decEq a b, decEqMembers as bs with
        | isTrue h, isTrue hs => isTrue (by rw [hk, h, hs])
        | isFalse h, _ => isFalse (by simp [h])
        | _, isFalse hs => isFalse (by simp [hs])
      else isFalse (by simp [hk])
end

instance [DecidableEq ν] : DecidableEq (Json ν) := decEq

/-! ## Nesting -/

mutual
/-- The number of containers around the deepest value, the value itself included. -/
def depth : Json ν → Nat
  | .arr items => depthItems items + 1
  | .obj members => depthMembers members + 1
  | .null | .bool _ | .num _ | .str _ => 0

def depthItems : List (Json ν) → Nat
  | [] => 0
  | v :: vs => max (depth v) (depthItems vs)

def depthMembers : List (Text × Json ν) → Nat
  | [] => 0
  | (_, v) :: ms => max (depth v) (depthMembers ms)
end

mutual
/-- No object at any depth has a key twice. -/
def UniqueKeys : Json ν → Prop
  | .arr items => UniqueKeysItems items
  | .obj members => (members.map Prod.fst).Nodup ∧ UniqueKeysMembers members
  | .null | .bool _ | .num _ | .str _ => True

def UniqueKeysItems : List (Json ν) → Prop
  | [] => True
  | v :: vs => UniqueKeys v ∧ UniqueKeysItems vs

def UniqueKeysMembers : List (Text × Json ν) → Prop
  | [] => True
  | (_, v) :: ms => UniqueKeys v ∧ UniqueKeysMembers ms
end

/-! ## Writing -/

def hexDigit (n : Nat) : CodeUnit := Fin.ofNat _ (if n % 16 < 10 then 0x30 + n % 16 else 0x57 + n % 16)

/-- The four lowercase hexadecimal digits of a code unit. -/
def hexText (c : CodeUnit) : Text :=
  [hexDigit (c.val / 0x1000), hexDigit (c.val / 0x100), hexDigit (c.val / 0x10), hexDigit c.val]

open Text (isLeadSurrogate isTrailSurrogate)

/-- `UnicodeEscape`. -/
def unicodeEscape (c : CodeUnit) : Text := unit '\\' :: unit 'u' :: hexText c

/-- The escape of a code unit that is no surrogate. -/
def escapeUnit (c : CodeUnit) : Text :=
  if c = 0x8 then [unit '\\', unit 'b']
  else if c = 0x9 then [unit '\\', unit 't']
  else if c = 0xA then [unit '\\', unit 'n']
  else if c = 0xC then [unit '\\', unit 'f']
  else if c = 0xD then [unit '\\', unit 'r']
  else if c = 0x22 then [unit '\\', 0x22]
  else if c = 0x5C then [unit '\\', 0x5C]
  else if c < 0x20 then unicodeEscape c
  else [c]

/-- A surrogate stays as it is in a pair and is escaped otherwise. -/
def escape : Text → Text
  | [] => []
  | [c] => if isLeadSurrogate c || isTrailSurrogate c then unicodeEscape c else escapeUnit c
  | c :: d :: rest =>
      if isLeadSurrogate c && isTrailSurrogate d then c :: d :: escape rest
      else (if isLeadSurrogate c || isTrailSurrogate c then unicodeEscape c else escapeUnit c) ++ escape (d :: rest)

/-- `QuoteJSONString`. -/
def quoted (s : Text) : Text := 0x22 :: (escape s ++ [0x22])

section Render

variable [JsonNumber ν]

def renderNumber (n : ν) : Text :=
  match JsonNumber.literal? n with
  | some l => l.text
  | none => Text.ofString "null"

mutual
/-- The text `JSON.stringify` writes for a value of plain data. -/
def render : Json ν → Text
  | .null => Text.ofString "null"
  | .bool true => Text.ofString "true"
  | .bool false => Text.ofString "false"
  | .num n => renderNumber n
  | .str s => quoted s
  | .arr items => unit '[' :: (renderItems items ++ [unit ']'])
  | .obj members => unit '\x7b' :: (renderMembers members ++ [unit '\x7d'])

def renderItems : List (Json ν) → Text
  | [] => []
  | [v] => render v
  | v :: w :: vs => render v ++ unit ',' :: renderItems (w :: vs)

def renderMembers : List (Text × Json ν) → Text
  | [] => []
  | [(k, v)] => quoted k ++ unit ':' :: render v
  | (k, v) :: m :: ms => quoted k ++ unit ':' :: render v ++ unit ',' :: renderMembers (m :: ms)
end

end Render

/-! ## Reading -/

/-- The white space of the grammar. -/
def isSpace (c : CodeUnit) : Bool := c = 0x9 || c = 0xA || c = 0xD || c = 0x20

def skipSpace (s : Text) : Text := s.dropWhile isSpace

def hexValue (c : CodeUnit) : Option Nat :=
  if 0x30 ≤ c.val ∧ c.val < 0x3A then some (c.val - 0x30)
  else if 0x61 ≤ c.val ∧ c.val < 0x67 then some (c.val - 0x57)
  else if 0x41 ≤ c.val ∧ c.val < 0x47 then some (c.val - 0x37)
  else none

def hexUnit (a b c d : CodeUnit) : Option CodeUnit := do
  return Fin.ofNat _ ((← hexValue a) * 0x1000 + (← hexValue b) * 0x100 + (← hexValue c) * 0x10 + (← hexValue d))

/-- The code unit that a one-letter escape stands for. -/
def letterEscape (c : CodeUnit) : Option CodeUnit :=
  if c = 0x22 ∨ c = 0x5C ∨ c = 0x2F then some c
  else if c = unit 'b' then some 0x8
  else if c = unit 'f' then some 0xC
  else if c = unit 'n' then some 0xA
  else if c = unit 'r' then some 0xD
  else if c = unit 't' then some 0x9
  else none

/-- The rest of a string after its opening quote: the code units up to the closing quote. -/
def stringBody : Text → Option (Text × Text)
  | [] => none
  | c :: rest =>
      if c = 0x22 then some ([], rest)
      else if c = 0x5C then
        match rest with
        | [] => none
        | e :: rest =>
            if e = unit 'u' then
              match rest with
              | h₁ :: h₂ :: h₃ :: h₄ :: rest =>
                  (hexUnit h₁ h₂ h₃ h₄).bind fun u => (stringBody rest).map fun (s, r) => (u :: s, r)
              | _ => none
            else (letterEscape e).bind fun u => (stringBody rest).map fun (s, r) => (u :: s, r)
      else if c < 0x20 then none
      else (stringBody rest).map fun (s, r) => (c :: s, r)

/-- A string with both quotes. -/
def stringToken : Text → Option (Text × Text)
  | c :: rest => if c = 0x22 then stringBody rest else none
  | [] => none

/-- A literal name in front. -/
def keyword (word : Text) (s : Text) : Option Text := if word <+: s then some (s.drop word.length) else none

section Parse

variable [JsonNumber ν]

/-- A value that is no container. -/
def scalar (s : Text) : Option (Json ν × Text) :=
  match s with
  | [] => none
  | c :: rest =>
      if c = 0x22 then (stringBody rest).map fun (s, r) => (.str s, r)
      else if c = unit 'n' then (keyword (Text.ofString "null") s).map fun r => (.null, r)
      else if c = unit 't' then (keyword (Text.ofString "true") s).map fun r => (.bool true, r)
      else if c = unit 'f' then (keyword (Text.ofString "false") s).map fun r => (.bool false, r)
      else (NumberLiteral.lex s).map fun (l, r) => (.num (JsonNumber.read l), r)

mutual
/-- A value in front, after white space. -/
def value : Nat → Text → Option (Json ν × Text)
  | 0, _ => none
  | fuel + 1, s =>
      match skipSpace s with
      | [] => none
      | c :: rest =>
          if c = unit '[' then
            match skipSpace rest with
            | [] => none
            | d :: rest' =>
                if d = unit ']' then some (.arr [], rest')
                else (items fuel (d :: rest')).map fun (vs, r) => (.arr vs, r)
          else if c = unit '\x7b' then
            match skipSpace rest with
            | [] => none
            | d :: rest' =>
                if d = unit '\x7d' then some (.obj [], rest')
                else (members fuel (d :: rest')).map fun (ms, r) => (.obj ms, r)
          else scalar (c :: rest)

/-- The elements of an array up to its end, at least one. -/
def items : Nat → Text → Option (List (Json ν) × Text)
  | 0, _ => none
  | fuel + 1, s =>
      (value fuel s).bind fun (v, r) =>
        match skipSpace r with
        | [] => none
        | c :: rest =>
            if c = unit ']' then some ([v], rest)
            else if c = unit ',' then (items fuel rest).map fun (vs, r) => (v :: vs, r)
            else none

/-- The members of an object up to its end, at least one. -/
def members : Nat → Text → Option (List (Text × Json ν) × Text)
  | 0, _ => none
  | fuel + 1, s =>
      (stringToken (skipSpace s)).bind fun (k, r) =>
        match skipSpace r with
        | [] => none
        | c :: rest =>
            if c = unit ':' then
              (value fuel rest).bind fun (v, r) =>
                match skipSpace r with
                | [] => none
                | c :: rest =>
                    if c = unit '\x7d' then some ([(k, v)], rest)
                    else if c = unit ',' then (members fuel rest).map fun (ms, r) => ((k, v) :: ms, r)
                    else none
            else none
end

/-- Enough fuel for a text: every second step consumes a code unit. -/
def fuelFor (s : Text) : Nat := 2 * s.length + 2

/-- The tree of a JSON text: one value with white space around it and nothing else. -/
def document (s : Text) : Option (Json ν) :=
  (value (fuelFor s) s).bind fun (v, r) => if skipSpace r = [] then some v else none

end Parse

end Json

end SecPlatform

/-!
## Objects and their own keys

`JSON.parse` builds objects from the tree of a text: a repeated key keeps its first place and takes the
last value, and the keys that are array indices come first, in numeric order. Canonical values have
their keys sorted by code units before that order applies.
-/

namespace SecPlatform.Json

variable {ν : Type}

/-- The array index a key spells: a canonical decimal below `2 ^ 32 - 1`. -/
def arrayIndex? (key : Text) : Option Nat :=
  match NumberLiteral.lexInteger key with
  | some (ds, []) => if Digit.value ds < 2 ^ 32 - 1 then some (Digit.value ds) else none
  | _ => none

/-- `OrdinaryOwnPropertyKeys`: array indices in numeric order, then the other keys as they were created. -/
def ownOrder {α : Type} (members : List (Text × α)) : List (Text × α) :=
  sortBy (fun m => (arrayIndex? m.1).getD 0) (members.filter fun m => (arrayIndex? m.1).isSome) ++
    members.filter fun m => (arrayIndex? m.1).isNone

/-- `CreateDataProperty`: an existing key keeps its place. -/
def define {α : Type} (members : List (Text × α)) (key : Text) (value : α) : List (Text × α) :=
  match members with
  | [] => [(key, value)]
  | (k, v) :: rest => if k = key then (k, value) :: rest else (k, v) :: define rest key value

mutual
/-- The value a tree stands for. -/
def ofTree : Json ν → Json ν
  | .arr items => .arr (ofTreeItems items)
  | .obj members => .obj (ownOrder ((ofTreeMembers members).foldl (fun ms m => define ms m.1 m.2) []))
  | .null => .null
  | .bool b => .bool b
  | .num n => .num n
  | .str s => .str s

def ofTreeItems : List (Json ν) → List (Json ν)
  | [] => []
  | v :: vs => ofTree v :: ofTreeItems vs

def ofTreeMembers : List (Text × Json ν) → List (Text × Json ν)
  | [] => []
  | (k, v) :: ms => (k, ofTree v) :: ofTreeMembers ms
end

/-- `JSON.parse`. -/
def parse [JsonNumber ν] (s : Text) : Option (Json ν) := (document s).map ofTree

/-- `Object.hasOwn` and the value behind it. -/
def get? (key : Text) : List (Text × Json ν) → Option (Json ν)
  | [] => none
  | (k, v) :: ms => if k = key then some v else get? key ms

end SecPlatform.Json
