import SecPlatform.Library.Lemmas.JsonFuel
import SecPlatform.Library.Lemmas.Number

/-!
# What the token readers consume

A reader that succeeds splits its text into the token and the rest: the text of the literal in front for
numbers, the word for literal names, and for strings a token that reads the same before any other rest.
-/

namespace SecPlatform

/-! ## Numbers -/

namespace NumberLiteral

theorem spanDigits_eq (s : Text) : s = (spanDigits s).1.map Digit.text ++ (spanDigits s).2 := by
  induction s with
  | nil => rfl
  | cons c cs ih =>
      simp only [spanDigits]
      cases hd : Digit.ofUnit c with
      | none => rfl
      | some d => simp only [List.map_cons, List.cons_append, Digit.text_of_ofUnit hd, ← ih]

theorem lexMinus_eq (s : Text) : s = (if (lexMinus s).1 then [unit '-'] else []) ++ (lexMinus s).2 := by
  cases s with
  | nil => rfl
  | cons c cs =>
      by_cases h : c = unit '-'
      · simp [lexMinus, h]
      · simp [lexMinus, h]

theorem lexInteger_eq {s r : Text} {ds : List Digit} (h : lexInteger s = some (ds, r)) :
    s = ds.map Digit.text ++ r := by
  have hs := spanDigits_eq s
  unfold lexInteger at h
  split at h
  · cases h
  · rename_i he
    split at h
    · cases h
    · simp only [Option.some.injEq, Prod.mk.injEq] at h
      obtain ⟨rfl, rfl⟩ := h
      rwa [he] at hs

theorem lexFraction_eq {s r : Text} {ds : List Digit} (h : lexFraction s = some (ds, r)) :
    s = fractionText ds ++ r := by
  cases s with
  | nil => simp only [lexFraction, Option.some.injEq, Prod.mk.injEq] at h; simp [← h.1, ← h.2, fractionText]
  | cons c cs =>
      have hs := spanDigits_eq cs
      simp only [lexFraction] at h
      split at h
      · rename_i hc
        split at h
        · cases h
        · rename_i ds' rest hne he
          simp only [Option.some.injEq, Prod.mk.injEq] at h
          obtain ⟨rfl, rfl⟩ := h
          rw [he] at hs
          cases ds' with
          | nil => exact (hne rfl).elim
          | cons d ds => simpa [fractionText, hc] using hs
      · simp only [Option.some.injEq, Prod.mk.injEq] at h; simp [← h.1, ← h.2, fractionText]

theorem lexSign_eq (s : Text) : s = ExponentText.signText (lexSign s).1 ++ (lexSign s).2 := by
  cases s with
  | nil => rfl
  | cons c cs =>
      simp only [lexSign]
      split_ifs with hm hp
      · simp [ExponentText.signText, hm]
      · simp [ExponentText.signText, hp]
      · rfl

theorem lexExponent_eq {s r : Text} {e : Option ExponentText} (h : lexExponent s = some (e, r)) :
    s = exponentText e ++ r := by
  cases s with
  | nil => simp only [lexExponent, Option.some.injEq, Prod.mk.injEq] at h; simp [← h.1, ← h.2, exponentText]
  | cons c cs =>
      have hsign := lexSign_eq cs
      have hs := spanDigits_eq (lexSign cs).2
      simp only [lexExponent] at h
      split at h
      · rename_i hc
        split at h
        · cases h
        · rename_i ds rest hne he
          simp only [Option.some.injEq, Prod.mk.injEq] at h
          obtain ⟨rfl, rfl⟩ := h
          rw [he] at hs
          have hletter : c = unit (if c = unit 'E' then 'E' else 'e') := by
            rcases hc with rfl | rfl <;> decide
          simp only [exponentText, ExponentText.text, decide_eq_true_eq, ← hletter, List.cons_append,
            List.append_assoc, ← hs, ← hsign]
      · simp only [Option.some.injEq, Prod.mk.injEq] at h; simp [← h.1, ← h.2, exponentText]

/-- Lexing splits off the text of the literal. -/
theorem lex_eq {s r : Text} {l : NumberLiteral} (h : lex s = some (l, r)) : s = l.text ++ r := by
  simp only [lex, Option.bind_eq_bind, Option.bind_eq_some_iff, Option.pure_def, Option.some.injEq,
    Prod.mk.injEq] at h
  obtain ⟨⟨ds, s₁⟩, hi, ⟨fs, s₂⟩, hf, ⟨e, s₃⟩, he, rfl, rfl⟩ := h
  have hm := lexMinus_eq s
  have hf := lexFraction_eq hf
  have he := lexExponent_eq he
  simp only at hf he
  rw [lexInteger_eq hi, hf, he] at hm
  simpa [text] using hm

/-- The code units of number literals. -/
def IsUnit (c : CodeUnit) : Prop :=
  c = unit '-' ∨ c = unit '+' ∨ c = unit '.' ∨ c = unit 'e' ∨ c = unit 'E' ∨ ∃ d : Digit, c = d.text

theorem isUnit_digits {ds : List Digit} {c : CodeUnit} (h : c ∈ ds.map Digit.text) : IsUnit c := by
  obtain ⟨d, _, rfl⟩ := List.mem_map.mp h
  simp [IsUnit]

theorem isUnit_text {l : NumberLiteral} {c : CodeUnit} (h : c ∈ l.text) : IsUnit c := by
  simp only [text, List.mem_append] at h
  rcases h with ((h | h) | h) | h
  · split at h
    · simp only [List.mem_singleton] at h; simp [IsUnit, h]
    · cases h
  · exact isUnit_digits h
  · cases hf : l.fraction with
    | nil => rw [hf] at h; cases h
    | cons d ds =>
        rw [hf] at h
        rcases List.mem_cons.mp h with rfl | h
        · simp [IsUnit]
        · exact isUnit_digits h
  · cases he : l.exponent with
    | none => rw [he] at h; cases h
    | some e =>
        rw [he] at h
        simp only [exponentText, ExponentText.text, List.mem_cons, List.mem_append] at h
        rcases h with rfl | h | h
        · cases e.capital <;> simp [IsUnit]
        · unfold ExponentText.signText at h
          split at h
          · cases h
          · simp only [List.mem_singleton] at h; simp [IsUnit, h]
          · simp only [List.mem_singleton] at h; simp [IsUnit, h]
        · exact isUnit_digits h

end NumberLiteral

namespace Json

/-! ## Strings -/

/-- A string that reads splits off its token, and the token reads the same before any rest. -/
theorem stringBody_eq {s t r : Text} (h : stringBody s = some (t, r)) :
    ∃ token, s = token ++ r ∧ ∀ r', stringBody (token ++ r') = some (t, r') := by
  fun_induction stringBody s generalizing t r with
  | case1 => cases h
  | case2 rest =>
      simp only [Option.some.injEq, Prod.mk.injEq] at h
      obtain ⟨rfl, rfl⟩ := h
      exact ⟨[0x22], rfl, fun r' => by rw [List.singleton_append, stringBody.eq_def]; rfl⟩
  | case3 => cases h
  | case4 h₁ h₂ h₃ h₄ rest _ ih =>
      simp only [Option.bind_eq_some_iff, Option.map_eq_some_iff, Prod.mk.injEq] at h
      obtain ⟨u, hu, ⟨s', r'⟩, hs, rfl, rfl⟩ := h
      obtain ⟨token, rfl, htoken⟩ := ih hs
      refine ⟨0x5C :: unit 'u' :: h₁ :: h₂ :: h₃ :: h₄ :: token, rfl, fun r'' => ?_⟩
      simp only [List.cons_append]
      rw [stringBody.eq_def]
      simp only [show ¬ (0x5C : CodeUnit) = 0x22 by decide, ↓reduceIte, hu, Option.bind_some, htoken,
        Option.map_some]
  | case5 => cases h
  | case6 e rest he _ ih =>
      simp only [Option.bind_eq_some_iff, Option.map_eq_some_iff, Prod.mk.injEq] at h
      obtain ⟨u, hu, ⟨s', r'⟩, hs, rfl, rfl⟩ := h
      obtain ⟨token, rfl, htoken⟩ := ih hs
      refine ⟨0x5C :: e :: token, rfl, fun r'' => ?_⟩
      simp only [List.cons_append]
      rw [stringBody.eq_def]
      simp only [show ¬ (0x5C : CodeUnit) = 0x22 by decide, ↓reduceIte, he, hu, Option.bind_some, htoken,
        Option.map_some]
  | case7 => cases h
  | case8 c rest hq hb hc ih =>
      simp only [Option.map_eq_some_iff, Prod.mk.injEq] at h
      obtain ⟨⟨s', r'⟩, hs, rfl, rfl⟩ := h
      obtain ⟨token, rfl, htoken⟩ := ih hs
      refine ⟨c :: token, rfl, fun r'' => ?_⟩
      simp only [List.cons_append]
      rw [stringBody.eq_def]
      simp only [hq, hb, hc, ↓reduceIte, htoken, Option.map_some]

/-- The token of a string is a document of its own. -/
theorem document_stringToken {ν : Type} [JsonNumber ν] {token t : Text}
    (h : ∀ r, stringBody (token ++ r) = some (t, r)) :
    document (ν := ν) (0x22 :: token) = some (.str t) := by
  have hbody := h []
  rw [List.append_nil] at hbody
  refine document_eq_some.mpr ⟨1, [], ?_, rfl⟩
  rw [value]
  simp only [skipSpace, show isSpace 0x22 = false by decide, List.dropWhile_cons, Bool.false_eq_true, ↓reduceIte,
    show ¬ (0x22 : CodeUnit) = unit '[' by decide, show ¬ (0x22 : CodeUnit) = unit '\x7b' by decide, scalar, hbody,
    Option.map_some]

/-! ## Literal names -/

theorem keyword_eq {word s r : Text} (h : keyword word s = some r) : s = word ++ r := by
  unfold keyword at h
  split at h
  · rename_i hp
    obtain ⟨t, rfl⟩ := hp
    simp only [List.drop_left, Option.some.injEq] at h
    rw [h]
  · cases h

/-- The code units of literal names and numbers. -/
def IsBareUnit (c : CodeUnit) : Prop :=
  NumberLiteral.IsUnit c ∨ c ∈ Text.ofString "null" ∨ c ∈ Text.ofString "true" ∨ c ∈ Text.ofString "false"

/-- A scalar that is no string splits off a bare token. -/
theorem scalar_eq {ν : Type} [JsonNumber ν] {s r : Text} {v : Json ν} (h : scalar s = some (v, r))
    (hq : s.head? ≠ some 0x22) : ∃ token, s = token ++ r ∧ ∀ c ∈ token, IsBareUnit c := by
  cases s with
  | nil => cases h
  | cons c rest =>
      simp only [List.head?_cons, ne_eq, Option.some.injEq] at hq
      simp only [scalar, if_neg hq] at h
      split_ifs at h with hn ht hf
      · simp only [Option.map_eq_some_iff, Prod.mk.injEq] at h
        obtain ⟨r', hk, _, rfl⟩ := h
        exact ⟨_, keyword_eq hk, fun c hc => .inr (.inl hc)⟩
      · simp only [Option.map_eq_some_iff, Prod.mk.injEq] at h
        obtain ⟨r', hk, _, rfl⟩ := h
        exact ⟨_, keyword_eq hk, fun c hc => .inr (.inr (.inl hc))⟩
      · simp only [Option.map_eq_some_iff, Prod.mk.injEq] at h
        obtain ⟨r', hk, _, rfl⟩ := h
        exact ⟨_, keyword_eq hk, fun c hc => .inr (.inr (.inr hc))⟩
      · simp only [Option.map_eq_some_iff, Prod.mk.injEq] at h
        obtain ⟨⟨l, r'⟩, hl, _, rfl⟩ := h
        exact ⟨l.text, NumberLiteral.lex_eq hl, fun c hc => .inl (NumberLiteral.isUnit_text hc)⟩

end Json

end SecPlatform
