import SecPlatform.Library.Lemmas.JsonFuel
import SecPlatform.Library.Lemmas.Number

/-!
# The text of a value reads back as the value

`document (render v) = some v` for every value whose numbers read back from their literals. Rendering is
therefore injective on such values.
-/

namespace SecPlatform.Json

open Text (isLeadSurrogate isTrailSurrogate)

/-! ## Strings -/

theorem hexValue_hexDigit (n : Nat) : hexValue (hexDigit n) = some (n % 16) := by
  have hlt : n % 16 < 16 := Nat.mod_lt _ (by decide)
  unfold hexDigit
  generalize n % 16 = m at hlt
  interval_cases m <;> decide

theorem hexUnit_hexText (c : CodeUnit) :
    hexUnit (hexDigit (c.val / 0x1000)) (hexDigit (c.val / 0x100)) (hexDigit (c.val / 0x10)) (hexDigit c.val) =
      some c := by
  have hc := c.isLt
  simp only [hexUnit, hexValue_hexDigit, Option.bind_eq_bind, Option.bind_some, Option.pure_def,
    Option.some.injEq]
  apply Fin.ext
  simp only [Fin.ofNat]
  omega

theorem stringBody_unicodeEscape (c : CodeUnit) (r : Text) :
    stringBody (unicodeEscape c ++ r) = (stringBody r).map fun (s, r) => (c :: s, r) := by
  simp only [unicodeEscape, hexText, List.cons_append, List.nil_append]
  rw [stringBody.eq_def]
  simp only [show unit '\\' = 0x5C by decide, show ¬ (0x5C : CodeUnit) = 0x22 by decide, ↓reduceIte,
    hexUnit_hexText, Option.bind_some]

theorem stringBody_letter {e u : CodeUnit} (hu : e ≠ unit 'u') (h : letterEscape e = some u) (r : Text) :
    stringBody (unit '\\' :: e :: r) = (stringBody r).map fun (s, r) => (u :: s, r) := by
  rw [stringBody.eq_def]
  simp only [show unit '\\' = 0x5C by decide, show ¬ (0x5C : CodeUnit) = 0x22 by decide, ↓reduceIte, hu, h,
    Option.bind_some]

theorem stringBody_plain {c : CodeUnit} (hq : c ≠ 0x22) (hb : c ≠ 0x5C) (hs : ¬ c < 0x20) (r : Text) :
    stringBody (c :: r) = (stringBody r).map fun (s, r) => (c :: s, r) := by
  rw [stringBody.eq_def]
  simp only [hq, hb, hs, ↓reduceIte]

theorem stringBody_escapeUnit (c : CodeUnit) (r : Text) :
    stringBody (escapeUnit c ++ r) = (stringBody r).map fun (s, r) => (c :: s, r) := by
  unfold escapeUnit
  split_ifs with h1 h2 h3 h4 h5 h6 h7 h8
  · subst h1; exact stringBody_letter (by decide) (by decide) r
  · subst h2; exact stringBody_letter (by decide) (by decide) r
  · subst h3; exact stringBody_letter (by decide) (by decide) r
  · subst h4; exact stringBody_letter (by decide) (by decide) r
  · subst h5; exact stringBody_letter (by decide) (by decide) r
  · subst h6; exact stringBody_letter (by decide) (by decide) r
  · subst h7; exact stringBody_letter (by decide) (by decide) r
  · exact stringBody_unicodeEscape c r
  · exact stringBody_plain h6 h7 h8 r

theorem stringBody_surrogate {c : CodeUnit} (h : isLeadSurrogate c || isTrailSurrogate c) (r : Text) :
    stringBody (c :: r) = (stringBody r).map fun (s, r) => (c :: s, r) := by
  have hc : 0xD800 ≤ c := by
    simp only [isLeadSurrogate, isTrailSurrogate, Bool.or_eq_true, Bool.and_eq_true, decide_eq_true_eq] at h
    rcases h with h | h
    · exact h.1
    · exact le_trans (by decide) h.1
  refine stringBody_plain ?_ ?_ ?_ r
  · rintro rfl; exact absurd hc (by decide)
  · rintro rfl; exact absurd hc (by decide)
  · exact not_lt.mpr (le_trans (by decide) hc)

theorem stringBody_escape (s r : Text) : stringBody (escape s ++ 0x22 :: r) = some (s, r) := by
  have hunit : ∀ (c : CodeUnit) (t : Text),
      stringBody ((if isLeadSurrogate c || isTrailSurrogate c then unicodeEscape c else escapeUnit c) ++ t) =
        (stringBody t).map fun (s, r) => (c :: s, r) := by
    intro c t
    split
    · exact stringBody_unicodeEscape c t
    · exact stringBody_escapeUnit c t
  have hend : stringBody (0x22 :: r) = some ([], r) := by rw [stringBody.eq_def]; simp only [↓reduceIte]
  induction s using escape.induct with
  | case1 => exact hend
  | case2 c _ => rw [escape, hunit, hend]; rfl
  | case3 c _ => rw [escape, hunit, hend]; rfl
  | case4 c d rest hpair ih =>
      simp only [Bool.and_eq_true] at hpair
      rw [escape, if_pos (by simpa using hpair), List.cons_append, stringBody_surrogate (by simp [hpair.1]),
        List.cons_append, stringBody_surrogate (by simp [hpair.2]), ih]
      rfl
  | case5 c d rest hpair ih =>
      rw [escape, if_neg hpair, List.append_assoc, hunit, ih]
      rfl

theorem quoted_append (s r : Text) : quoted s ++ r = 0x22 :: (escape s ++ 0x22 :: r) := by
  simp [quoted]

theorem stringToken_quoted (s r : Text) : stringToken (quoted s ++ r) = some (s, r) := by
  rw [quoted_append, stringToken, if_pos rfl, stringBody_escape]

/-! ## Values -/

variable {ν : Type} [JsonNumber ν]

/-- A number whose literal reads back as the number. -/
def ExactNumber (n : ν) : Prop :=
  ∃ l, JsonNumber.literal? n = some l ∧ l.WF ∧ JsonNumber.read l = n

mutual
/-- Every number in the value reads back. -/
def Exact : Json ν → Prop
  | .num n => ExactNumber n
  | .arr items => ExactItems items
  | .obj members => ExactMembers members
  | .null | .bool _ | .str _ => True

def ExactItems : List (Json ν) → Prop
  | [] => True
  | v :: vs => Exact v ∧ ExactItems vs

def ExactMembers : List (Text × Json ν) → Prop
  | [] => True
  | (_, v) :: ms => Exact v ∧ ExactMembers ms
end

/-- What may follow a value: the end, white space, or the punctuation behind a value. -/
def Follows (r : Text) : Prop :=
  ∀ c ∈ r.head?, isSpace c ∨ c = unit ',' ∨ c = unit ']' ∨ c = unit '\x7d'

theorem Follows.ends {r : Text} (h : Follows r) : NumberLiteral.Ends r := by
  intro c hc
  rcases h c hc with hs | rfl | rfl | rfl
  · simp only [isSpace, Bool.or_eq_true, decide_eq_true_eq] at hs
    rcases hs with ((rfl | rfl) | rfl) | rfl <;> decide
  all_goals decide

theorem follows_nil : Follows [] := by simp [Follows]

theorem follows_cons {c : CodeUnit} {r : Text} (h : c = unit ',' ∨ c = unit ']' ∨ c = unit '\x7d') :
    Follows (c :: r) := by
  intro d hd
  simp only [List.head?_cons, Option.mem_def, Option.some.injEq] at hd
  subst hd
  exact Or.inr h

theorem skipSpace_cons {c : CodeUnit} {r : Text} (h : isSpace c = false) : skipSpace (c :: r) = c :: r := by
  simp [skipSpace, h]

theorem keyword_append (word r : Text) : keyword word (word ++ r) = some r := by
  simp [keyword]

/-- The first code unit of a scalar's text is no white space and opens no container. -/
theorem value_of_scalar {f : Nat} {s : Text} {c : CodeUnit} {t : Text} {x : Json ν × Text} (hs : s = c :: t)
    (hsp : isSpace c = false) (hb : c ≠ unit '[') (hc : c ≠ unit '\x7b') (h : scalar s = some x) :
    value (f + 1) s = some x := by
  subst hs
  rw [value, skipSpace_cons hsp]
  simp only [hb, hc, ↓reduceIte, h]

theorem digit_head (d : Digit) : isSpace d.text = false ∧ d.text ≠ unit '[' ∧ d.text ≠ unit ']' ∧
    d.text ≠ unit '\x7b' ∧ d.text ≠ 0x22 ∧ d.text ≠ unit 'n' ∧ d.text ≠ unit 't' ∧ d.text ≠ unit 'f' := by
  revert d; decide

theorem value_renderNumber {n : ν} (hn : ExactNumber n) {r : Text} (hr : Follows r) (f : Nat) :
    value (f + 1) (renderNumber n ++ r) = some (.num n, r) := by
  obtain ⟨l, hl, hwf, hread⟩ := hn
  obtain ⟨c, t, ht, hc⟩ := NumberLiteral.head?_text hwf
  have hrender : renderNumber n = l.text := by simp [renderNumber, hl]
  have hclass : isSpace c = false ∧ c ≠ unit '[' ∧ c ≠ unit '\x7b' ∧ c ≠ 0x22 ∧ c ≠ unit 'n' ∧
      c ≠ unit 't' ∧ c ≠ unit 'f' := by
    rcases hc with rfl | ⟨d, rfl⟩
    · decide
    · obtain ⟨hsp, hb, _, h⟩ := digit_head d
      exact ⟨hsp, hb, h⟩
  obtain ⟨hsp, hb, hcb, hq, hn', ht', hf'⟩ := hclass
  rw [hrender]
  refine value_of_scalar (c := c) (t := t ++ r) (by simp [ht]) hsp hb hcb ?_
  have hlex := NumberLiteral.lex_text hwf hr.ends
  rw [ht, List.cons_append] at hlex ⊢
  simp only [scalar, hq, hn', ht', hf', ↓reduceIte, hlex, Option.map_some, hread]

theorem render_head : (v : Json ν) → Exact v → ∃ c t, render v = c :: t ∧ isSpace c = false ∧ c ≠ unit ']'
  | .null, _ => ⟨unit 'n', _, rfl, by decide, by decide⟩
  | .bool true, _ => ⟨unit 't', _, rfl, by decide, by decide⟩
  | .bool false, _ => ⟨unit 'f', _, rfl, by decide, by decide⟩
  | .num n, hv => by
      obtain ⟨l, hl, hwf, _⟩ := hv
      obtain ⟨c, t, ht, hc⟩ := NumberLiteral.head?_text hwf
      refine ⟨c, t, by simp [render, renderNumber, hl, ht], ?_⟩
      rcases hc with rfl | ⟨d, rfl⟩
      · decide
      · exact ⟨(digit_head d).1, (digit_head d).2.2.1⟩
  | .str s, _ => ⟨0x22, _, rfl, by decide, by decide⟩
  | .arr _, _ => ⟨unit '[', _, rfl, by decide, by decide⟩
  | .obj _, _ => ⟨unit '\x7b', _, rfl, by decide, by decide⟩

/-- The text of array elements starts with no white space and not with the end of the array. -/
theorem renderItems_head (v : Json ν) (vs : List (Json ν)) (h : Exact v) :
    ∃ c t, renderItems (v :: vs) = c :: t ∧ isSpace c = false ∧ c ≠ unit ']' := by
  obtain ⟨c, t, ht, hc⟩ := render_head v h
  cases vs with
  | nil => exact ⟨c, t, by simp [renderItems, ht], hc⟩
  | cons w ws => exact ⟨c, t ++ unit ',' :: renderItems (w :: ws), by simp [renderItems, ht], hc⟩

theorem renderMembers_head (k : Text) (v : Json ν) (ms : List (Text × Json ν)) :
    ∃ t, renderMembers ((k, v) :: ms) = 0x22 :: t := by
  cases ms with
  | nil => exact ⟨_, rfl⟩
  | cons m ms => exact ⟨_, rfl⟩

mutual
theorem value_render : (v : Json ν) → Exact v → ∀ r, Follows r → ∃ f, value f (render v ++ r) = some (v, r)
  | .null, _, r, _ => ⟨1, value_of_scalar (c := unit 'n') rfl (by decide) (by decide) (by decide) (by
      simp only [render]
      show scalar (unit 'n' :: _) = _
      rw [scalar, if_neg (by decide), if_pos rfl]
      exact congrArg _ (keyword_append (Text.ofString "null") r))⟩
  | .bool true, _, r, _ => ⟨1, value_of_scalar (c := unit 't') rfl (by decide) (by decide) (by decide) (by
      simp only [render]
      show scalar (unit 't' :: _) = _
      rw [scalar, if_neg (by decide), if_neg (by decide), if_pos rfl]
      exact congrArg _ (keyword_append (Text.ofString "true") r))⟩
  | .bool false, _, r, _ => ⟨1, value_of_scalar (c := unit 'f') rfl (by decide) (by decide) (by decide) (by
      simp only [render]
      show scalar (unit 'f' :: _) = _
      rw [scalar, if_neg (by decide), if_neg (by decide), if_neg (by decide), if_pos rfl]
      exact congrArg _ (keyword_append (Text.ofString "false") r))⟩
  | .num n, hv, r, hr => ⟨1, by simp only [render]; exact value_renderNumber hv hr 0⟩
  | .str s, _, r, _ => ⟨1, by
      simp only [render]
      refine value_of_scalar (quoted_append s r) (by decide) (by decide) (by decide) ?_
      rw [quoted_append, scalar, if_pos rfl, stringBody_escape]
      rfl⟩
  | .arr [], _, r, _ => ⟨1, by
      simp only [render, renderItems, List.nil_append, List.cons_append]
      rw [value, skipSpace_cons (by decide)]
      simp only [↓reduceIte]
      rw [skipSpace_cons (by decide)]
      simp only [↓reduceIte]⟩
  | .arr (v :: vs), hv, r, _ => by
      obtain ⟨f, hf⟩ := items_render (v :: vs) (by simp) hv r
      obtain ⟨c, t, ht, hsp, hne⟩ := renderItems_head v vs hv.1
      refine ⟨f + 1, ?_⟩
      simp only [render, List.cons_append, List.append_assoc, List.nil_append]
      rw [value, skipSpace_cons (by decide)]
      simp only [↓reduceIte]
      rw [ht, List.cons_append] at hf ⊢
      rw [skipSpace_cons hsp]
      simp only [hne, ↓reduceIte, hf, Option.map_some]
  | .obj [], _, r, _ => ⟨1, by
      simp only [render, renderMembers, List.nil_append, List.cons_append]
      rw [value, skipSpace_cons (by decide)]
      simp only [show ¬ unit '\x7b' = unit '[' by decide, ↓reduceIte]
      rw [skipSpace_cons (by decide)]
      simp only [↓reduceIte]⟩
  | .obj ((k, v) :: ms), hv, r, _ => by
      obtain ⟨f, hf⟩ := members_render ((k, v) :: ms) (by simp) hv r
      obtain ⟨t, ht⟩ := renderMembers_head k v ms
      refine ⟨f + 1, ?_⟩
      simp only [render, List.cons_append, List.append_assoc, List.nil_append]
      rw [value, skipSpace_cons (by decide)]
      simp only [show ¬ unit '\x7b' = unit '[' by decide, ↓reduceIte]
      rw [ht, List.cons_append] at hf ⊢
      rw [skipSpace_cons (by decide)]
      simp only [show ¬ (0x22 : CodeUnit) = unit '\x7d' by decide, ↓reduceIte, hf, Option.map_some]

theorem items_render : (vs : List (Json ν)) → vs ≠ [] → ExactItems vs → ∀ r,
    ∃ f, items f (renderItems vs ++ unit ']' :: r) = some (vs, r)
  | [v], _, h, r => by
      obtain ⟨f, hf⟩ := value_render v h.1 (unit ']' :: r) (follows_cons (by simp))
      refine ⟨f + 1, ?_⟩
      simp only [renderItems, items, hf, Option.bind_some]
      rw [skipSpace_cons (by decide)]
      simp only [↓reduceIte]
  | v :: w :: ws, _, h, r => by
      obtain ⟨f, hf⟩ := value_render v h.1 (unit ',' :: (renderItems (w :: ws) ++ unit ']' :: r))
        (follows_cons (by simp))
      obtain ⟨g, hg⟩ := items_render (w :: ws) (by simp) h.2 r
      refine ⟨max (2 * (render v ++ unit ',' :: (renderItems (w :: ws) ++ unit ']' :: r)).length + 1)
        (2 * (renderItems (w :: ws) ++ unit ']' :: r).length + 2) + 1, ?_⟩
      have hf := value_fuel hf (le_max_left _ (2 * (renderItems (w :: ws) ++ unit ']' :: r).length + 2))
      have hg := items_fuel hg (le_max_right
        (2 * (render v ++ unit ',' :: (renderItems (w :: ws) ++ unit ']' :: r)).length + 1) _)
      simp only [renderItems, List.append_assoc, List.cons_append]
      rw [items, hf, Option.bind_some]
      simp only
      rw [skipSpace_cons (by decide)]
      simp only [show ¬ unit ',' = unit ']' by decide, ↓reduceIte, hg, Option.map_some]

theorem members_render : (ms : List (Text × Json ν)) → ms ≠ [] → ExactMembers ms → ∀ r,
    ∃ f, members f (renderMembers ms ++ unit '\x7d' :: r) = some (ms, r)
  | [(k, v)], _, h, r => by
      obtain ⟨f, hf⟩ := value_render v h.1 (unit '\x7d' :: r) (follows_cons (by simp))
      refine ⟨f + 1, ?_⟩
      have htok := stringToken_quoted k (unit ':' :: (render v ++ unit '\x7d' :: r))
      simp only [renderMembers, List.append_assoc, List.cons_append]
      rw [members, quoted_append, skipSpace_cons (by decide), ← quoted_append, htok, Option.bind_some]
      simp only
      rw [skipSpace_cons (by decide)]
      simp only [↓reduceIte, hf, Option.bind_some]
      rw [skipSpace_cons (by decide)]
      simp only [↓reduceIte]
  | (k, v) :: (l, w) :: ms, _, h, r => by
      obtain ⟨f, hf⟩ := value_render v h.1 (unit ',' :: (renderMembers ((l, w) :: ms) ++ unit '\x7d' :: r))
        (follows_cons (by simp))
      obtain ⟨g, hg⟩ := members_render ((l, w) :: ms) (by simp) h.2 r
      have htok := stringToken_quoted k
        (unit ':' :: (render v ++ unit ',' :: (renderMembers ((l, w) :: ms) ++ unit '\x7d' :: r)))
      refine ⟨max (2 * (render v ++ unit ',' :: (renderMembers ((l, w) :: ms) ++ unit '\x7d' :: r)).length + 1)
        (2 * (renderMembers ((l, w) :: ms) ++ unit '\x7d' :: r).length + 2) + 1, ?_⟩
      have hf := value_fuel hf (le_max_left _
        (2 * (renderMembers ((l, w) :: ms) ++ unit '\x7d' :: r).length + 2))
      have hg := members_fuel hg (le_max_right
        (2 * (render v ++ unit ',' :: (renderMembers ((l, w) :: ms) ++ unit '\x7d' :: r)).length + 1) _)
      simp only [renderMembers, List.append_assoc, List.cons_append]
      rw [members, quoted_append, skipSpace_cons (by decide), ← quoted_append, htok, Option.bind_some]
      simp only
      rw [skipSpace_cons (by decide)]
      simp only [↓reduceIte, hf, Option.bind_some]
      rw [skipSpace_cons (by decide)]
      simp only [show ¬ unit ',' = unit '\x7d' by decide, ↓reduceIte, hg, Option.map_some]
end

/-- The text of a value is a JSON text, and its tree is the value. -/
theorem document_render {v : Json ν} (h : Exact v) : document (render v) = some v := by
  obtain ⟨f, hf⟩ := value_render v h [] follows_nil
  rw [List.append_nil] at hf
  exact document_eq_some.mpr ⟨f, [], hf, rfl⟩

/-- Equal texts stand for equal values. -/
theorem render_injective {v w : Json ν} (hv : Exact v) (hw : Exact w) (h : render v = render w) : v = w := by
  have := document_render hv
  rw [h, document_render hw] at this
  exact (Option.some.inj this).symm

end SecPlatform.Json
