import Mathlib.Data.List.TakeWhile
import Mathlib.Tactic.IntervalCases
import Mathlib.Tactic.Ring
import SecPlatform.Library.Number

/-!
# Literals and numbers read back

Printing a well-formed literal and lexing it gives the literal; the value of the literal that stands for a
finite number is that number, except for `-0`, whose text is `0`.
-/

namespace SecPlatform

/-! ## Digits of natural numbers -/

namespace Digit

/-- A digit is written with no other code unit. -/
theorem text_ne {c : CodeUnit} (h : ofUnit c = none) (d : Digit) : d.text ≠ c := by
  rintro rfl
  rw [ofUnit_text] at h
  cases h

theorem value_toDigits (n : Nat) : value (ofNat n) = n := by
  have hfold : ∀ (l : List Char), (∀ c ∈ l, c.isDigit) → ∀ m,
      (l.map fun c => (Fin.ofNat 10 (c.toNat - 0x30) : Digit)).foldl (fun n d => 10 * n + d.val) m =
        Nat.ofDigitChars 10 l m := by
    intro l
    induction l with
    | nil => intro _ m; simp
    | cons c cs ih =>
        intro h m
        have hc : c.isDigit := h c (by simp)
        have hlt : c.toNat - 48 < 10 := by
          have : c.val.toNat ≤ 57 := by
            have := (Char.isDigit_iff_toNat.mp hc).2; simpa using this
          have h2 : c.toNat ≤ 57 := this
          omega
        rw [List.map_cons, List.foldl_cons, ih (fun c' hc' => h c' (by simp [hc'])), Nat.ofDigitChars_cons]
        congr 1
        simp only [Fin.ofNat]
        rw [Nat.mod_eq_of_lt hlt]
        rfl
  have := hfold (Nat.toDigits 10 n) (fun c hc => Nat.isDigit_of_mem_toDigits (by decide) (by decide) hc) 0
  simpa [value, ofNat] using this

theorem ofNat_ne_nil (n : Nat) : ofNat n ≠ [] := by
  simp [ofNat, Nat.toDigits_ne_nil]

theorem length_ofNat_le {n k : Nat} (hk : 0 < k) (h : n < 10 ^ k) : (ofNat n).length ≤ k := by
  simpa [ofNat] using (Nat.length_toDigits_le_iff (by decide) hk).mpr h

theorem value_append (ds es : List Digit) : value (ds ++ es) = value ds * 10 ^ es.length + value es := by
  have hfold : ∀ (l : List Digit) (m : Nat),
      l.foldl (fun n d => 10 * n + d.val) m = m * 10 ^ l.length + value l := by
    intro l
    induction l with
    | nil => intro m; simp [value]
    | cons d l ih =>
        intro m
        simp only [value, List.foldl_cons, List.length_cons]
        rw [ih, ih (10 * 0 + d.val)]
        ring
  rw [value, List.foldl_append, hfold]
  rfl

theorem value_replicate_zero (n : Nat) : value (List.replicate n 0) = 0 := by
  induction n with
  | zero => rfl
  | succ n ih => simpa [value, List.replicate_succ] using ih

/-- A positive number does not start with a zero. -/
theorem head?_ofNat {n : Nat} (h : 0 < n) : (ofNat n).head? ≠ some 0 := by
  induction n using Nat.strong_induction_on with
  | _ n ih =>
      by_cases hn : n < 10
      · simp only [ofNat, Nat.toDigits_of_lt_base hn, List.map_cons, List.map_nil, List.head?_cons]
        interval_cases n <;> decide
      · have hsplit := Nat.toDigits_append_toDigits (b := 10) (n := n / 10) (d := n % 10) (by decide)
          (by omega) (by omega)
        rw [show 10 * (n / 10) + n % 10 = n by omega] at hsplit
        have hne : (Nat.toDigits 10 (n / 10)) ≠ [] := Nat.toDigits_ne_nil
        rw [ofNat, ← hsplit, List.map_append, List.head?_append_of_ne_nil _ (by simp)]
        exact ih (n / 10) (by omega) (by omega)

end Digit

/-! ## Lexing what was printed -/

namespace NumberLiteral

/-- Nothing that could continue a number stands in front. -/
def Ends (rest : Text) : Prop :=
  ∀ c ∈ rest.head?, Digit.ofUnit c = none ∧ c ≠ unit '.' ∧ c ≠ unit 'e' ∧ c ≠ unit 'E'

def NoDigit (rest : Text) : Prop := ∀ c ∈ rest.head?, Digit.ofUnit c = none

theorem Ends.noDigit {rest : Text} (h : Ends rest) : NoDigit rest := fun c hc => (h c hc).1

theorem spanDigits_append (ds : List Digit) {rest : Text} (h : NoDigit rest) :
    spanDigits (ds.map Digit.text ++ rest) = (ds, rest) := by
  induction ds with
  | nil =>
      cases rest with
      | nil => rfl
      | cons c cs => simp [spanDigits, h c (by simp)]
  | cons d ds ih => simp [spanDigits, Digit.ofUnit_text, ih]

theorem noDigit_exponentText (e : Option ExponentText) {rest : Text} (h : NoDigit rest) :
    NoDigit (exponentText e ++ rest) := by
  cases e with
  | none => exact h
  | some e =>
      intro c hc
      simp only [exponentText, ExponentText.text, List.cons_append, List.head?_cons, Option.mem_def,
        Option.some.injEq] at hc
      subst hc
      cases e.capital <;> decide

theorem noDigit_fractionText (ds : List Digit) {rest : Text} (h : NoDigit rest) :
    NoDigit (fractionText ds ++ rest) := by
  cases ds with
  | nil => exact h
  | cons d ds =>
      intro c hc
      simp only [fractionText, List.cons_append, List.head?_cons, Option.mem_def, Option.some.injEq] at hc
      subst hc
      decide

theorem lexSign_append (s : Option Bool) {ds : List Digit} (hd : ds ≠ []) (rest : Text) :
    lexSign (ExponentText.signText s ++ (ds.map Digit.text ++ rest)) = (s, ds.map Digit.text ++ rest) := by
  rcases s with _ | _ | _
  · cases ds with
    | nil => exact absurd rfl hd
    | cons d ds =>
        have h1 : d.text ≠ unit '-' := Digit.text_ne (by decide) d
        have h2 : d.text ≠ unit '+' := Digit.text_ne (by decide) d
        simp [ExponentText.signText, lexSign, h1, h2]
  · simp [ExponentText.signText, lexSign, show unit '+' ≠ unit '-' by decide]
  · simp [ExponentText.signText, lexSign]

theorem lexExponent_append {e : Option ExponentText} {rest : Text} (he : ∀ x, e = some x → x.digits ≠ [])
    (hr : Ends rest) : lexExponent (exponentText e ++ rest) = some (e, rest) := by
  cases e with
  | none =>
      cases rest with
      | nil => rfl
      | cons c cs =>
          obtain ⟨_, _, h1, h2⟩ := hr c (by simp)
          simp [exponentText, lexExponent, h1, h2]
  | some x =>
      obtain ⟨capital, sign, digits⟩ := x
      have hd : digits ≠ [] := he _ rfl
      have hspan := spanDigits_append digits hr.noDigit
      have hsign := lexSign_append sign hd rest
      cases digits with
      | nil => exact absurd rfl hd
      | cons d ds =>
          simp only [List.map_cons, List.cons_append] at hspan hsign
          cases capital
          · simp [exponentText, ExponentText.text, lexExponent, hsign, hspan,
              show ¬ unit 'e' = unit 'E' by decide]
          · simp [exponentText, ExponentText.text, lexExponent, hsign, hspan]

theorem lexFraction_append (ds : List Digit) {rest : Text} (hr : NoDigit rest)
    (hdot : ∀ c ∈ rest.head?, c ≠ unit '.') : lexFraction (fractionText ds ++ rest) = some (ds, rest) := by
  cases ds with
  | nil =>
      cases rest with
      | nil => rfl
      | cons c cs => simp [fractionText, lexFraction, hdot c (by simp)]
  | cons d ds =>
      have := spanDigits_append (d :: ds) hr
      simp only [List.map_cons, List.cons_append] at this
      simp [fractionText, lexFraction, this]

theorem exponentText_head_ne_dot (e : Option ExponentText) {rest : Text} (hr : Ends rest) :
    ∀ c ∈ (exponentText e ++ rest).head?, c ≠ unit '.' := by
  cases e with
  | none => exact fun c hc => (hr c hc).2.1
  | some e =>
      intro c hc
      simp only [exponentText, ExponentText.text, List.cons_append, List.head?_cons, Option.mem_def,
        Option.some.injEq] at hc
      subst hc
      cases e.capital <;> decide

theorem lexInteger_append {ds : List Digit} {rest : Text} (hd : IntegerOk ds) (hr : NoDigit rest) :
    lexInteger (ds.map Digit.text ++ rest) = some (ds, rest) := by
  have hspan := spanDigits_append ds hr
  rcases hd with rfl | ⟨d, ds, rfl, hd⟩
  · simp only [List.map_cons, List.map_nil, List.cons_append, List.nil_append] at hspan
    simp [lexInteger, hspan]
  · simp only [List.map_cons, List.cons_append] at hspan
    simp [lexInteger, hspan, hd]

theorem IntegerOk.ne_nil {ds : List Digit} (h : IntegerOk ds) : ds ≠ [] := by
  rcases h with rfl | ⟨_, _, rfl, _⟩ <;> simp

/-- A literal read back from its text, whatever follows it. -/
theorem lex_text {l : NumberLiteral} (hl : l.WF) {rest : Text} (hr : Ends rest) :
    lex (l.text ++ rest) = some (l, rest) := by
  obtain ⟨negative, integer, fraction, exponent⟩ := l
  have hexp := lexExponent_append hl.exponent hr
  have hfrac := lexFraction_append fraction (noDigit_exponentText exponent hr.noDigit)
    (exponentText_head_ne_dot exponent hr)
  have hint := lexInteger_append hl.integer
    (noDigit_fractionText fraction (noDigit_exponentText exponent hr.noDigit))
  have hminus : lexMinus (text ⟨negative, integer, fraction, exponent⟩ ++ rest) =
      (negative, integer.map Digit.text ++ (fractionText fraction ++ (exponentText exponent ++ rest))) := by
    cases negative
    · cases integer with
      | nil => exact absurd rfl hl.integer.ne_nil
      | cons d ds =>
          have : d.text ≠ unit '-' := Digit.text_ne (by decide) d
          simp [text, lexMinus, this]
    · simp [text, lexMinus]
  simp [lex, hminus, hint, hfrac, hexp]

/-- A literal starts with a minus sign or a digit. -/
theorem head?_text {l : NumberLiteral} (hl : l.WF) :
    ∃ c t, l.text = c :: t ∧ (c = unit '-' ∨ ∃ d : Digit, c = d.text) := by
  obtain ⟨negative, integer, fraction, exponent⟩ := l
  cases negative
  · cases integer with
    | nil => exact absurd rfl hl.integer.ne_nil
    | cons d ds =>
        exact ⟨d.text, ds.map Digit.text ++ fractionText fraction ++ exponentText exponent, by simp [text],
          Or.inr ⟨d, rfl⟩⟩
  · exact ⟨unit '-', _, rfl, Or.inl rfl⟩

end NumberLiteral

/-! ## The value of the text of a number -/

namespace Decimal

theorem digits_cons (d : Decimal) : ∃ x xs, d.digits = x :: xs ∧ x ≠ 0 := by
  obtain ⟨digits, point, head_ne, last_ne, ne_nil⟩ := d
  cases digits with
  | nil => exact absurd rfl ne_nil
  | cons x xs => exact ⟨x, xs, rfl, by simpa using head_ne⟩

theorem dropWhile_digits (d : Decimal) (zs : List Digit) :
    (d.digits ++ zs).dropWhile (· = 0) = d.digits ++ zs := by
  obtain ⟨x, xs, h, hx⟩ := d.digits_cons
  simp [h, hx]

theorem takeWhile_digits (d : Decimal) (zs : List Digit) : (d.digits ++ zs).takeWhile (· = 0) = [] := by
  obtain ⟨x, xs, h, hx⟩ := d.digits_cons
  simp [h, hx]

theorem dropWhile_reverse_digits (d : Decimal) (b : Nat) :
    ((d.digits ++ List.replicate b 0).reverse.dropWhile (· = 0)).reverse = d.digits := by
  have hlast : ∃ x xs, d.digits.reverse = x :: xs ∧ x ≠ 0 := by
    cases h : d.digits.reverse with
    | nil => exact absurd (List.reverse_eq_nil_iff.mp h) d.ne_nil
    | cons x xs =>
        refine ⟨x, xs, rfl, fun hx => d.last_ne ?_⟩
        rw [← List.head?_reverse, h, hx, List.head?_cons]
  obtain ⟨x, xs, h, hx⟩ := hlast
  rw [List.reverse_append, List.reverse_replicate, List.dropWhile_append_of_pos (by simp), h,
    List.dropWhile_cons, if_neg (by simpa using hx), ← h, List.reverse_reverse]

/-- Zeros around the digits of a decimal only move its point. -/
theorem ofDigits_pad (d : Decimal) (a b : Nat) (p : Int) (hp : p - a = d.point) :
    ofDigits (List.replicate a 0 ++ (d.digits ++ List.replicate b 0)) p = some d := by
  have htake : (List.replicate a (0 : Digit) ++ (d.digits ++ List.replicate b 0)).takeWhile (· = 0) =
      List.replicate a 0 := by
    rw [List.takeWhile_append_of_pos (by simp), d.takeWhile_digits, List.append_nil]
  have hdrop : (List.replicate a (0 : Digit) ++ (d.digits ++ List.replicate b 0)).dropWhile (· = 0) =
      d.digits ++ List.replicate b 0 := by
    rw [List.dropWhile_append_of_pos (by simp), d.dropWhile_digits]
  unfold ofDigits
  simp only [htake, hdrop, d.dropWhile_reverse_digits, d.ne_nil, ↓reduceDIte, List.length_replicate, hp]

theorem literal_wf (negative : Bool) (d : Decimal) : (d.literal negative).WF := by
  obtain ⟨x, xs, h, hx⟩ := d.digits_cons
  unfold literal
  dsimp only
  split_ifs with hk hpos hneg
  · exact ⟨Or.inr ⟨x, xs ++ List.replicate (d.point - d.digits.length).toNat 0, by simp [h], hx⟩, by simp⟩
  · refine ⟨Or.inr ⟨x, xs.take (d.point.toNat - 1), ?_, hx⟩, by simp⟩
    dsimp only
    rw [h, show d.point.toNat = (d.point.toNat - 1) + 1 by omega, List.take_succ_cons]
    simp
  · exact ⟨Or.inl rfl, by simp⟩
  · refine ⟨Or.inr ⟨x, [], by simp [h], hx⟩, fun e he => ?_⟩
    simp only [Option.some.injEq] at he
    subst he
    exact Digit.ofNat_ne_nil _

end Decimal

namespace JsNumber

theorem read_literal (negative : Bool) (d : Decimal) :
    read (d.literal negative) = .finite negative d := by
  unfold Decimal.literal read
  dsimp only
  split_ifs with hk hpos hneg
  · have := d.ofDigits_pad 0 (d.point - d.digits.length).toNat
      ((d.digits ++ List.replicate (d.point - d.digits.length).toNat 0).length + 0 : Int)
      (by simp; omega)
    simp only [List.replicate_zero, List.nil_append] at this
    simp only [List.append_nil, this]
  · have := d.ofDigits_pad 0 0 ((d.digits.take d.point.toNat).length + 0 : Int) (by
      rw [List.length_take]; simp; omega)
    simp only [List.replicate_zero, List.nil_append, List.append_nil] at this
    simp only [List.take_append_drop, this]
  · have := d.ofDigits_pad ((-d.point).toNat + 1) 0 (([0] : List Digit).length + 0 : Int) (by simp; omega)
    simp only [List.replicate_zero, List.append_nil, List.replicate_succ, List.cons_append] at this
    simp only [List.cons_append, List.nil_append, this]
  · have hexp : ExponentText.value
        ⟨false, some (decide (d.point - 1 < 0)), Digit.ofNat (d.point - 1).natAbs⟩ = d.point - 1 := by
      simp only [ExponentText.value, Digit.value_toDigits, Option.some.injEq, decide_eq_true_eq]
      split <;> omega
    have := d.ofDigits_pad 0 0 ((d.digits.take 1).length + (d.point - 1) : Int) (by
      have := List.length_pos_of_ne_nil d.ne_nil
      rw [List.length_take]; simp; omega)
    simp only [List.replicate_zero, List.nil_append, List.append_nil] at this
    simp only [List.take_append_drop, hexp, this]

/-- A number whose text reads back as the number itself: every finite number but `-0`. -/
theorem read_literal? {n : JsNumber} (hf : n.isFinite) (hz : n ≠ .zero true) :
    ∃ l, n.literal? = some l ∧ l.WF ∧ read l = n := by
  cases n with
  | nan => cases hf
  | infinity _ => cases hf
  | zero negative =>
      cases negative
      · exact ⟨_, rfl, ⟨Or.inl rfl, by simp⟩, by decide⟩
      · exact absurd rfl hz
  | finite negative d => exact ⟨_, rfl, d.literal_wf negative, read_literal negative d⟩

/-! ## Natural numbers -/

theorem ofNat_zero : ofNat 0 = .zero false := by decide

/-- The decimal of a positive natural number. -/
theorem ofNat_pos {n : Nat} (h : 0 < n) : ∃ d : Decimal, ofNat n = .finite false d ∧
    d.point = (Digit.ofNat n).length ∧ (d.digits.length : Int) ≤ d.point ∧
    Digit.ofNat n = d.digits ++ List.replicate (d.point - d.digits.length).toNat 0 := by
  have hhead := Digit.head?_ofNat h
  have hne := Digit.ofNat_ne_nil n
  obtain ⟨x, xs, hx⟩ : ∃ x xs, Digit.ofNat n = x :: xs := by
    cases hc : Digit.ofNat n with
    | nil => exact absurd hc hne
    | cons x xs => exact ⟨x, xs, rfl⟩
  have hx0 : x ≠ 0 := by rw [hx] at hhead; simpa using hhead
  have htake : (Digit.ofNat n).takeWhile (· = 0) = [] := by simp [hx, hx0]
  have hdrop : (Digit.ofNat n).dropWhile (· = 0) = Digit.ofNat n := by
    simp [hx, hx0]
  -- the digits are the core and the zeros dropped behind it
  have hsplit : Digit.ofNat n = ((Digit.ofNat n).reverse.dropWhile (· = 0)).reverse ++
      List.replicate ((Digit.ofNat n).reverse.takeWhile (· = 0)).length 0 := by
    have h1 := List.takeWhile_append_dropWhile (p := fun d : Digit => decide (d = 0)) (l := (Digit.ofNat n).reverse)
    have h2 := congrArg List.reverse h1
    rw [List.reverse_append, List.reverse_reverse] at h2
    have h3 : ((Digit.ofNat n).reverse.takeWhile (· = 0)).reverse =
        List.replicate ((Digit.ofNat n).reverse.takeWhile (· = 0)).length 0 := by
      rw [List.eq_replicate_iff]
      refine ⟨by simp, fun b hb => ?_⟩
      have := List.mem_takeWhile_imp (List.mem_reverse.mp hb)
      simpa using this
    rw [h3] at h2
    exact h2.symm
  have hcore : ((Digit.ofNat n).reverse.dropWhile (· = 0)).reverse ≠ [] := by
    intro hc
    rw [hc, List.nil_append, hx] at hsplit
    have : x = 0 := by
      have hm : x ∈ List.replicate ((x :: xs).reverse.takeWhile (· = 0)).length (0 : Digit) := by
        rw [← hsplit]; simp
      exact List.eq_of_mem_replicate hm
    exact hx0 this
  have hlen := congrArg List.length hsplit
  rw [List.length_append, List.length_replicate] at hlen
  have hread : ∃ d : Decimal, Decimal.ofDigits (Digit.ofNat n) ((Digit.ofNat n).length + 0 : Int) = some d ∧
      d.digits = ((Digit.ofNat n).reverse.dropWhile (· = 0)).reverse ∧
      d.point = (Digit.ofNat n).length := by
    unfold Decimal.ofDigits
    simp only [htake, hdrop, hcore, ↓reduceDIte, List.length_nil, Option.some.injEq, exists_eq_left', true_and]
    simp
  obtain ⟨d, hd, hdig, hpt⟩ := hread
  refine ⟨d, ?_, hpt, by rw [hpt, hdig]; omega, ?_⟩
  · simp only [ofNat, read, List.append_nil, hd]
  · rw [hpt, hdig]
    conv_lhs => rw [hsplit]
    congr 2
    omega

theorem toNat?_ofNat (n : Nat) : (ofNat n).toNat? = some n := by
  rcases Nat.eq_zero_or_pos n with rfl | h
  · rfl
  · obtain ⟨d, hd, hp, hle, hdig⟩ := ofNat_pos h
    rw [hd, toNat?, if_pos hle, ← hdig, Digit.value_toDigits]

theorem ofNat_injective : Function.Injective ofNat := fun a b h => by
  have := congrArg toNat? h
  simpa [toNat?_ofNat] using this

theorem isFinite_ofNat (n : Nat) : (ofNat n).isFinite := by
  rcases Nat.eq_zero_or_pos n with rfl | h
  · rfl
  · obtain ⟨d, hd, _⟩ := ofNat_pos h; rw [hd]; rfl

theorem ofNat_ne_negZero (n : Nat) : ofNat n ≠ .zero true := by
  rcases Nat.eq_zero_or_pos n with rfl | h
  · decide
  · obtain ⟨d, hd, _⟩ := ofNat_pos h; rw [hd]; simp

/-- A natural number of at most 21 digits is written with its decimal digits. -/
theorem literal?_ofNat {n : Nat} (h : n < 10 ^ 21) :
    (ofNat n).literal? = some ⟨false, Digit.ofNat n, [], none⟩ := by
  rcases Nat.eq_zero_or_pos n with rfl | hpos
  · rfl
  · obtain ⟨d, hd, hp, hle, hdig⟩ := ofNat_pos hpos
    have hlen := Digit.length_ofNat_le (by decide : 0 < 21) h
    rw [hd, literal?, Decimal.literal, if_pos ⟨hle, by rw [hp]; omega⟩, ← hdig]

end JsNumber

end SecPlatform
