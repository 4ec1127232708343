import SecPlatform.Library.Text

/-!
# Numbers and their decimal text

A finite number is a sign with the digits and the decimal point of its text, `0.d₁d₂…dₖ × 10^point`.
A number literal is kept as written, so that lexing a literal and printing it are inverse to each
other. The reader keeps the exact decimal value of a literal.
-/

namespace SecPlatform

abbrev Digit := Fin 10

namespace Digit

def text (d : Digit) : CodeUnit := Fin.ofNat _ (0x30 + d.val)

def ofUnit (c : CodeUnit) : Option Digit :=
  if h : 0x30 ≤ c.val ∧ c.val < 0x3A then some ⟨c.val - 0x30, by omega⟩ else none

theorem ofUnit_text (d : Digit) : ofUnit d.text = some d := by
  revert d; decide

theorem text_injective : Function.Injective text := fun a b h => by
  have := congrArg ofUnit h
  simpa [ofUnit_text] using this

theorem text_of_ofUnit {c : CodeUnit} {d : Digit} (h : ofUnit c = some d) : d.text = c := by
  unfold ofUnit at h
  split at h
  · cases h; apply Fin.ext; simp only [text, Fin.ofNat]; omega
  · cases h

/-- The value of a run of decimal digits. -/
def value (ds : List Digit) : Nat := ds.foldl (fun n d => 10 * n + d.val) 0

/-- The digits of a natural number, the most significant first. -/
def ofNat (n : Nat) : List Digit := (Nat.toDigits 10 n).map fun c => Fin.ofNat 10 (c.toNat - 0x30)

end Digit

/-! ## Literals -/

/-- The exponent part of a literal, as written. -/
structure ExponentText where
  capital : Bool
  sign : Option Bool
  digits : List Digit
  deriving DecidableEq, Repr

/-- A number literal, as written. `sign = some true` is a minus sign. -/
structure NumberLiteral where
  negative : Bool
  integer : List Digit
  fraction : List Digit
  exponent : Option ExponentText
  deriving DecidableEq, Repr

namespace ExponentText

def signText : Option Bool → Text
  | none => []
  | some true => [unit '-']
  | some false => [unit '+']

def text (e : ExponentText) : Text :=
  unit (if e.capital then 'E' else 'e') :: (signText e.sign ++ e.digits.map Digit.text)

def value (e : ExponentText) : Int :=
  if e.sign = some true then - (Digit.value e.digits : Int) else Digit.value e.digits

end ExponentText

namespace NumberLiteral

def fractionText : List Digit → Text
  | [] => []
  | ds => unit '.' :: ds.map Digit.text

def exponentText : Option ExponentText → Text
  | none => []
  | some e => e.text

def text (l : NumberLiteral) : Text :=
  (if l.negative then [unit '-'] else []) ++ l.integer.map Digit.text ++ fractionText l.fraction ++
    exponentText l.exponent

/-- An integer part is one zero or starts with another digit. -/
def IntegerOk (ds : List Digit) : Prop := ds = [0] ∨ ∃ d rest, ds = d :: rest ∧ d ≠ 0

/-- What the grammar asks of the parts of a literal. -/
structure WF (l : NumberLiteral) : Prop where
  integer : IntegerOk l.integer
  exponent : ∀ e, l.exponent = some e → e.digits ≠ []

/-! ## Lexing -/

/-- The longest run of digits in front. -/
def spanDigits : Text → List Digit × Text
  | [] => ([], [])
  | c :: cs =>
      match Digit.ofUnit c with
      | some d => let (ds, rest) := spanDigits cs; (d :: ds, rest)
      | none => ([], c :: cs)

def lexInteger (s : Text) : Option (List Digit × Text) :=
  match spanDigits s with
  | ([], _) => none
  | (d :: ds, rest) => if d = 0 ∧ ds ≠ [] then none else some (d :: ds, rest)

def lexFraction : Text → Option (List Digit × Text)
  | c :: cs =>
      if c = unit '.' then
        match spanDigits cs with
        | ([], _) => none
        | (ds, rest) => some (ds, rest)
      else some ([], c :: cs)
  | [] => some ([], [])

def lexSign : Text → Option Bool × Text
  | c :: cs => if c = unit '-' then (some true, cs) else if c = unit '+' then (some false, cs) else (none, c :: cs)
  | [] => (none, [])

def lexExponent : Text → Option (Option ExponentText × Text)
  | c :: cs =>
      if c = unit 'e' ∨ c = unit 'E' then
        let (sign, rest) := lexSign cs
        match spanDigits rest with
        | ([], _) => none
        | (ds, rest) => some (some ⟨c = unit 'E', sign, ds⟩, rest)
      else some (none, c :: cs)
  | [] => some (none, [])

def lexMinus : Text → Bool × Text
  | c :: cs => if c = unit '-' then (true, cs) else (false, c :: cs)
  | [] => (false, [])

/-- The number literal in front, read as far as it goes. -/
def lex (s : Text) : Option (NumberLiteral × Text) := do
  let (negative, s) := lexMinus s
  let (integer, s) ← lexInteger s
  let (fraction, s) ← lexFraction s
  let (exponent, s) ← lexExponent s
  return (⟨negative, integer, fraction, exponent⟩, s)

end NumberLiteral

/-! ## Decimals -/

/-- The magnitude `0.d₁d₂…dₖ × 10^point`: no digit in front or at the end is zero. -/
structure Decimal where
  digits : List Digit
  point : Int
  head_ne : digits.head? ≠ some 0
  last_ne : digits.getLast? ≠ some 0
  ne_nil : digits ≠ []
  deriving DecidableEq

namespace Decimal

/-- Zeros in front move the point, zeros at the end drop; nothing is left of zero. -/
def ofDigits (ds : List Digit) (point : Int) : Option Decimal :=
  let lead := ds.takeWhile (· = 0)
  let rest := ds.dropWhile (· = 0)
  let core := (rest.reverse.dropWhile (· = 0)).reverse
  if h : core = [] then none
  else some {
    digits := core
    point := point - lead.length
    head_ne := by
      intro hz
      have hne : rest ≠ [] := by rintro hr; simp [core, hr] at h
      have hpre : core <+: rest := by
        have := List.dropWhile_suffix (fun d : Digit => decide (d = 0)) (l := rest.reverse)
        simpa [core] using List.reverse_prefix.mpr this
      have hhead : core.head? = rest.head? := by
        obtain ⟨t, ht⟩ := hpre
        rw [← ht, List.head?_append_of_ne_nil _ h]
      rw [hhead] at hz
      have := List.head?_dropWhile_not (fun d : Digit => decide (d = 0)) ds
      simp only [rest] at hz
      rw [hz] at this; simp at this
    last_ne := by
      intro hz
      have : (rest.reverse.dropWhile (fun d : Digit => decide (d = 0))).head? = some 0 := by
        simpa [core] using hz
      have h0 := List.head?_dropWhile_not (fun d : Digit => decide (d = 0)) rest.reverse
      rw [this] at h0; simp at h0
    ne_nil := h }

/-- The point form of `Number::toString`, without the sign. -/
def literal (negative : Bool) (d : Decimal) : NumberLiteral :=
  let k : Int := d.digits.length
  if k ≤ d.point ∧ d.point ≤ 21 then
    ⟨negative, d.digits ++ List.replicate (d.point - k).toNat 0, [], none⟩
  else if 0 < d.point ∧ d.point ≤ 21 then
    ⟨negative, d.digits.take d.point.toNat, d.digits.drop d.point.toNat, none⟩
  else if -6 < d.point ∧ d.point ≤ 0 then
    ⟨negative, [0], List.replicate (-d.point).toNat 0 ++ d.digits, none⟩
  else
    let e := d.point - 1
    ⟨negative, d.digits.take 1, d.digits.drop 1, some ⟨false, some (decide (e < 0)), Digit.ofNat e.natAbs⟩⟩

end Decimal

/-! ## Numbers -/

/-- A number: `zero true` is `-0`. -/
inductive JsNumber where
  | nan
  | infinity (negative : Bool)
  | zero (negative : Bool)
  | finite (negative : Bool) (magnitude : Decimal)
  deriving DecidableEq

namespace JsNumber

/-- The value of a literal. -/
def read (l : NumberLiteral) : JsNumber :=
  let exp := match l.exponent with
    | none => 0
    | some e => e.value
  match Decimal.ofDigits (l.integer ++ l.fraction) (l.integer.length + exp) with
  | none => .zero l.negative
  | some d => .finite l.negative d

/-- The literal `JSON.stringify` writes; a number that is not finite has none. -/
def literal? : JsNumber → Option NumberLiteral
  | .nan | .infinity _ => none
  | .zero _ => some ⟨false, [0], [], none⟩
  | .finite negative d => some (d.literal negative)

def ofNat (n : Nat) : JsNumber := read ⟨false, Digit.ofNat n, [], none⟩

/-- `Number.isFinite`. -/
def isFinite : JsNumber → Bool
  | .nan | .infinity _ => false
  | .zero _ | .finite _ _ => true

/-- `Number.isInteger`: no digit stands behind the point. -/
def isInteger : JsNumber → Bool
  | .nan | .infinity _ => false
  | .zero _ => true
  | .finite _ d => d.digits.length ≤ d.point

/-- `value < 0`. -/
def isNegative : JsNumber → Bool
  | .infinity negative | .finite negative _ => negative
  | .nan | .zero _ => false

/-- `value < 1`: a magnitude is below one when its point stands in front of every digit. -/
def ltOne : JsNumber → Bool
  | .nan => false
  | .infinity negative => negative
  | .zero _ => true
  | .finite negative d => negative || d.point ≤ 0

/-- `value > 1`. -/
def gtOne : JsNumber → Bool
  | .infinity negative => !negative
  | .finite false d => decide (0 < d.point) && !(d.digits == [1] && d.point == 1)
  | .nan | .zero _ | .finite true _ => false

/-- `===`: the two zeros are equal and `NaN` equals nothing. -/
def strictEquals : JsNumber → JsNumber → Bool
  | .nan, _ => false
  | .zero _, .zero _ => true
  | a, b => a == b

/-- The natural number a number stands for, when it is one. -/
def toNat? : JsNumber → Option Nat
  | .zero _ => some 0
  | .finite false d =>
      if d.digits.length ≤ d.point then
        some (Digit.value (d.digits ++ List.replicate (d.point - d.digits.length).toNat 0))
      else none
  | _ => none

end JsNumber

end SecPlatform
