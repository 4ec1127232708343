import SecPlatform.Library.Json

/-!
# The fuel of the JSON reader never decides

A successful reading consumes text, more fuel does not change it, and `Json.fuelFor` is enough for it.
-/

namespace SecPlatform.Json

variable {ν : Type} [JsonNumber ν]

/-! ## Consumption -/

theorem skipSpace_length_le (s : Text) : (skipSpace s).length ≤ s.length :=
  (List.dropWhile_suffix _).length_le

theorem skipSpace_cons_length {s : Text} {c : CodeUnit} {rest : Text} (h : skipSpace s = c :: rest) :
    rest.length < s.length := by
  have := skipSpace_length_le s
  rw [h, List.length_cons] at this
  omega

theorem stringBody_length {s t r : Text} (h : stringBody s = some (t, r)) : r.length < s.length := by
  fun_induction stringBody s generalizing t r with
  | case1 => cases h
  | case2 => simp only [Option.some.injEq, Prod.mk.injEq] at h; simp [← h.2]
  | case3 => cases h
  | case4 _ h₁ h₂ h₃ h₄ rest ih =>
      simp only [Option.bind_eq_some_iff, Option.map_eq_some_iff] at h
      obtain ⟨_, _, ⟨s', r'⟩, hs, he⟩ := h
      simp only [Prod.mk.injEq] at he
      have := ih hs
      simp only [← he.2, List.length_cons]
      omega
  | case5 => cases h
  | case6 _ e rest _ ih =>
      simp only [Option.bind_eq_some_iff, Option.map_eq_some_iff] at h
      obtain ⟨_, _, ⟨s', r'⟩, hs, he⟩ := h
      simp only [Prod.mk.injEq] at he
      have := ih hs
      simp only [← he.2, List.length_cons]
      omega
  | case7 => cases h
  | case8 c rest _ _ _ ih =>
      simp only [Option.map_eq_some_iff] at h
      obtain ⟨⟨s', r'⟩, hs, he⟩ := h
      simp only [Prod.mk.injEq] at he
      have := ih hs
      simp only [← he.2, List.length_cons]
      omega

theorem stringToken_length {s t r : Text} (h : stringToken s = some (t, r)) : r.length < s.length := by
  cases s with
  | nil => cases h
  | cons c rest =>
      simp only [stringToken] at h
      split at h
      · have := stringBody_length h; simp only [List.length_cons]; omega
      · cases h

theorem spanDigits_length (s : Text) :
    (NumberLiteral.spanDigits s).1.length + (NumberLiteral.spanDigits s).2.length = s.length := by
  fun_induction NumberLiteral.spanDigits s <;> simp_all; omega

theorem lexInteger_length {s r : Text} {ds} (h : NumberLiteral.lexInteger s = some (ds, r)) :
    r.length < s.length := by
  have hs := spanDigits_length s
  unfold NumberLiteral.lexInteger at h
  split at h
  · cases h
  · rename_i d ds' rest he
    split at h
    · cases h
    · simp only [Option.some.injEq, Prod.mk.injEq] at h
      rw [he] at hs
      simp only [List.length_cons] at hs
      rw [← h.2]; omega

theorem lexFraction_length {s r : Text} {ds} (h : NumberLiteral.lexFraction s = some (ds, r)) :
    r.length ≤ s.length := by
  unfold NumberLiteral.lexFraction at h
  split at h
  · rename_i c cs
    have hs := spanDigits_length cs
    split at h
    · split at h
      · cases h
      · rename_i rest _ he
        simp only [Option.some.injEq, Prod.mk.injEq] at h
        rw [he] at hs
        simp only [← h.2, List.length_cons]
        simp only at hs
        omega
    · simp only [Option.some.injEq, Prod.mk.injEq] at h; simp [← h.2]
  · simp only [Option.some.injEq, Prod.mk.injEq] at h; simp [← h.2]

theorem lexSign_length (s : Text) : (NumberLiteral.lexSign s).2.length ≤ s.length := by
  unfold NumberLiteral.lexSign
  split
  · split
    · simp
    · split <;> simp
  · simp

theorem lexExponent_length {s r : Text} {e} (h : NumberLiteral.lexExponent s = some (e, r)) :
    r.length ≤ s.length := by
  unfold NumberLiteral.lexExponent at h
  split at h
  · rename_i c cs
    split at h
    · have hsign := lexSign_length cs
      have hs := spanDigits_length (NumberLiteral.lexSign cs).2
      dsimp only at h
      split at h
      · cases h
      · rename_i rest _ he
        simp only [Option.some.injEq, Prod.mk.injEq] at h
        rw [he] at hs
        simp only [← h.2, List.length_cons]
        simp only at hs
        omega
    · simp only [Option.some.injEq, Prod.mk.injEq] at h; simp [← h.2]
  · simp only [Option.some.injEq, Prod.mk.injEq] at h; simp [← h.2]

theorem lexMinus_length (s : Text) : (NumberLiteral.lexMinus s).2.length ≤ s.length := by
  unfold NumberLiteral.lexMinus
  split
  · split <;> simp
  · simp

theorem lex_length {s r : Text} {l} (h : NumberLiteral.lex s = some (l, r)) : r.length < s.length := by
  simp only [NumberLiteral.lex, Option.bind_eq_bind, Option.bind_eq_some_iff, Prod.exists,
    Option.pure_def, Option.some.injEq, Prod.mk.injEq] at h
  obtain ⟨ds, s₁, h₁, fs, s₂, h₂, e, s₃, h₃, _, rfl⟩ := h
  have := lexMinus_length s
  have := lexInteger_length h₁
  have := lexFraction_length h₂
  have := lexExponent_length h₃
  omega

theorem keyword_length {word s r : Text} (hw : word ≠ []) (h : keyword word s = some r) :
    r.length < s.length := by
  unfold keyword at h
  split at h
  · rename_i hp
    have := hp.length_le
    have := List.length_pos_of_ne_nil hw
    simp only [Option.some.injEq] at h
    rw [← h, List.length_drop]; omega
  · cases h

theorem scalar_length {s r : Text} {v : Json ν} (h : scalar s = some (v, r)) : r.length < s.length := by
  unfold scalar at h
  split at h
  · cases h
  · rename_i c rest
    split at h
    · simp only [Option.map_eq_some_iff, Prod.mk.injEq, Prod.exists] at h
      obtain ⟨_, _, hb, _, rfl⟩ := h
      have := stringBody_length hb
      simp only [List.length_cons]; omega
    · split at h
      · simp only [Option.map_eq_some_iff, Prod.mk.injEq] at h
        obtain ⟨_, hk, _, rfl⟩ := h
        exact keyword_length (by decide) hk
      · split at h
        · simp only [Option.map_eq_some_iff, Prod.mk.injEq] at h
          obtain ⟨_, hk, _, rfl⟩ := h
          exact keyword_length (by decide) hk
        · split at h
          · simp only [Option.map_eq_some_iff, Prod.mk.injEq] at h
            obtain ⟨_, hk, _, rfl⟩ := h
            exact keyword_length (by decide) hk
          · simp only [Option.map_eq_some_iff, Prod.mk.injEq, Prod.exists] at h
            obtain ⟨_, _, hl, _, rfl⟩ := h
            exact lex_length hl

/-! ## Values -/

theorem value_items_members_length (f : Nat) :
    (∀ s v r, value (ν := ν) f s = some (v, r) → r.length < s.length) ∧
    (∀ s vs r, items (ν := ν) f s = some (vs, r) → r.length + 1 < s.length) ∧
    (∀ s ms r, members (ν := ν) f s = some (ms, r) → r.length + 1 < s.length) := by
  induction f with
  | zero => simp [value, items, members]
  | succ f ih =>
      obtain ⟨ihv, ihi, ihm⟩ := ih
      refine ⟨fun s v r h => ?_, fun s vs r h => ?_, fun s ms r h => ?_⟩
      · rw [value] at h
        split at h
        · cases h
        · rename_i c rest hs
          have hle := skipSpace_length_le s
          rw [hs, List.length_cons] at hle
          split at h
          · split at h
            · cases h
            · rename_i d rest' hr
              have := skipSpace_length_le rest
              rw [hr, List.length_cons] at this
              split at h
              · simp only [Option.some.injEq, Prod.mk.injEq] at h; rw [← h.2]; omega
              · simp only [Option.map_eq_some_iff, Prod.mk.injEq, Prod.exists] at h
                obtain ⟨_, _, hi, _, rfl⟩ := h
                have := ihi _ _ _ hi
                simp only [List.length_cons] at this
                omega
          · split at h
            · split at h
              · cases h
              · rename_i d rest' hr
                have := skipSpace_length_le rest
                rw [hr, List.length_cons] at this
                split at h
                · simp only [Option.some.injEq, Prod.mk.injEq] at h; rw [← h.2]; omega
                · simp only [Option.map_eq_some_iff, Prod.mk.injEq, Prod.exists] at h
                  obtain ⟨_, _, hm, _, rfl⟩ := h
                  have := ihm _ _ _ hm
                  simp only [List.length_cons] at this
                  omega
            · have := scalar_length h
              simp only [List.length_cons] at this
              omega
      · simp only [items, Option.bind_eq_some_iff, Prod.exists] at h
        obtain ⟨v, r₁, hv, h⟩ := h
        have hv := ihv _ _ _ hv
        split at h
        · cases h
        · rename_i c rest hs
          have := skipSpace_cons_length hs
          split at h
          · simp only [Option.some.injEq, Prod.mk.injEq] at h; rw [← h.2]; omega
          · split at h
            · simp only [Option.map_eq_some_iff, Prod.mk.injEq, Prod.exists] at h
              obtain ⟨_, _, hi, _, rfl⟩ := h
              have := ihi _ _ _ hi
              omega
            · cases h
      · simp only [members, Option.bind_eq_some_iff, Prod.exists] at h
        obtain ⟨k, r₁, hk, h⟩ := h
        have hk := stringToken_length hk
        have := skipSpace_length_le s
        split at h
        · cases h
        · rename_i c rest hs
          have := skipSpace_cons_length hs
          split at h
          · simp only [Option.bind_eq_some_iff, Prod.exists] at h
            obtain ⟨v, r₂, hv, h⟩ := h
            have hv := ihv _ _ _ hv
            split at h
            · cases h
            · rename_i c' rest' hs'
              have := skipSpace_cons_length hs'
              split at h
              · simp only [Option.some.injEq, Prod.mk.injEq] at h; rw [← h.2]; omega
              · split at h
                · simp only [Option.map_eq_some_iff, Prod.mk.injEq, Prod.exists] at h
                  obtain ⟨_, _, hm, _, rfl⟩ := h
                  have := ihm _ _ _ hm
                  omega
                · cases h
          · cases h

theorem value_length {f : Nat} {s r : Text} {v : Json ν} (h : value f s = some (v, r)) :
    r.length < s.length :=
  (value_items_members_length f).1 s v r h

theorem items_length {f : Nat} {s r : Text} {vs : List (Json ν)} (h : items f s = some (vs, r)) :
    r.length + 1 < s.length :=
  (value_items_members_length f).2.1 s vs r h

theorem members_length {f : Nat} {s r : Text} {ms : List (Text × Json ν)} (h : members f s = some (ms, r)) :
    r.length + 1 < s.length :=
  (value_items_members_length f).2.2 s ms r h

/-! ## Enough fuel -/

/-- Any fuel that reads a value can be replaced by any fuel above the bound of the text. -/
theorem value_items_members_fuel (f : Nat) :
    (∀ s x g, value (ν := ν) f s = some x → 2 * s.length + 1 ≤ g → value g s = some x) ∧
    (∀ s x g, items (ν := ν) f s = some x → 2 * s.length + 2 ≤ g → items g s = some x) ∧
    (∀ s x g, members (ν := ν) f s = some x → 2 * s.length + 2 ≤ g → members g s = some x) := by
  induction f with
  | zero => simp [value, items, members]
  | succ f ih =>
      obtain ⟨ihv, ihi, ihm⟩ := ih
      refine ⟨fun s x g h hg => ?_, fun s x g h hg => ?_, fun s x g h hg => ?_⟩
      · obtain ⟨g, rfl⟩ : ∃ g', g = g' + 1 := ⟨g - 1, by omega⟩
        rw [value] at h ⊢
        cases hs : skipSpace s with
        | nil => simp [hs] at h
        | cons c rest =>
            have hrest := skipSpace_cons_length hs
            simp only [hs] at h ⊢
            by_cases hb : c = unit '['
            · simp only [hb, ↓reduceIte] at h ⊢
              cases hr : skipSpace rest with
              | nil => simp [hr] at h
              | cons d rest' =>
                  have := skipSpace_length_le rest
                  rw [hr] at this
                  simp only [hr] at h ⊢
                  by_cases hd : d = unit ']'
                  · simpa only [hd, ↓reduceIte] using h
                  · simp only [hd, ↓reduceIte, Option.map_eq_some_iff] at h ⊢
                    obtain ⟨y, hi, rfl⟩ := h
                    exact ⟨y, ihi _ _ _ hi (by omega), rfl⟩
            · simp only [hb, ↓reduceIte] at h ⊢
              by_cases hc : c = unit '\x7b'
              · simp only [hc, ↓reduceIte] at h ⊢
                cases hr : skipSpace rest with
                | nil => simp [hr] at h
                | cons d rest' =>
                    have := skipSpace_length_le rest
                    rw [hr] at this
                    simp only [hr] at h ⊢
                    by_cases hd : d = unit '\x7d'
                    · simpa only [hd, ↓reduceIte] using h
                    · simp only [hd, ↓reduceIte, Option.map_eq_some_iff] at h ⊢
                      obtain ⟨y, hm, rfl⟩ := h
                      exact ⟨y, ihm _ _ _ hm (by omega), rfl⟩
              · simpa only [hc, ↓reduceIte] using h
      · obtain ⟨g, rfl⟩ : ∃ g', g = g' + 1 := ⟨g - 1, by omega⟩
        simp only [items, Option.bind_eq_some_iff, Prod.exists] at h ⊢
        obtain ⟨v, r, hv, h⟩ := h
        refine ⟨v, r, ihv _ _ _ hv (by omega), ?_⟩
        have hvl := value_length hv
        cases hs : skipSpace r with
        | nil => simp [hs] at h
        | cons c rest =>
            have hrest := skipSpace_cons_length hs
            simp only [hs] at h ⊢
            by_cases hc : c = unit ']'
            · simpa only [hc, ↓reduceIte] using h
            · simp only [hc, ↓reduceIte] at h ⊢
              by_cases hd : c = unit ','
              · simp only [hd, ↓reduceIte, Option.map_eq_some_iff] at h ⊢
                obtain ⟨y, hi, rfl⟩ := h
                exact ⟨y, ihi _ _ _ hi (by omega), rfl⟩
              · simp [hd] at h
      · obtain ⟨g, rfl⟩ : ∃ g', g = g' + 1 := ⟨g - 1, by omega⟩
        simp only [members, Option.bind_eq_some_iff, Prod.exists] at h ⊢
        obtain ⟨k, r, hk, h⟩ := h
        refine ⟨k, r, hk, ?_⟩
        have hkl := stringToken_length hk
        have hsl := skipSpace_length_le s
        cases hs : skipSpace r with
        | nil => simp [hs] at h
        | cons c rest =>
            have hrest := skipSpace_cons_length hs
            simp only [hs] at h ⊢
            by_cases hc : c = unit ':'
            · simp only [hc, ↓reduceIte, Option.bind_eq_some_iff, Prod.exists] at h ⊢
              obtain ⟨v, r₂, hv, h⟩ := h
              refine ⟨v, r₂, ihv _ _ _ hv (by omega), ?_⟩
              have hvl := value_length hv
              cases hs' : skipSpace r₂ with
              | nil => simp [hs'] at h
              | cons c' rest' =>
                  have hrest' := skipSpace_cons_length hs'
                  simp only [hs'] at h ⊢
                  by_cases hd : c' = unit '\x7d'
                  · simpa only [hd, ↓reduceIte] using h
                  · simp only [hd, ↓reduceIte] at h ⊢
                    by_cases he : c' = unit ','
                    · simp only [he, ↓reduceIte, Option.map_eq_some_iff] at h ⊢
                      obtain ⟨y, hm, rfl⟩ := h
                      exact ⟨y, ihm _ _ _ hm (by omega), rfl⟩
                    · simp [he] at h
            · simp [hc] at h

theorem value_fuel {f g : Nat} {s : Text} {x : Json ν × Text} (h : value f s = some x)
    (hg : 2 * s.length + 1 ≤ g) : value g s = some x :=
  (value_items_members_fuel f).1 s x g h hg

theorem items_fuel {f g : Nat} {s : Text} {x : List (Json ν) × Text} (h : items f s = some x)
    (hg : 2 * s.length + 2 ≤ g) : items g s = some x :=
  (value_items_members_fuel f).2.1 s x g h hg

theorem members_fuel {f g : Nat} {s : Text} {x : List (Text × Json ν) × Text} (h : members f s = some x)
    (hg : 2 * s.length + 2 ≤ g) : members g s = some x :=
  (value_items_members_fuel f).2.2 s x g h hg

/-- No valid text is refused for want of fuel. -/
theorem document_eq_some {s : Text} {v : Json ν} :
    document s = some v ↔ ∃ f r, value f s = some (v, r) ∧ skipSpace r = [] := by
  simp only [document, Option.bind_eq_some_iff, Prod.exists]
  constructor
  · rintro ⟨v', r, hv, h⟩
    split at h
    · rename_i hr; cases h; exact ⟨_, r, hv, hr⟩
    · cases h
  · rintro ⟨f, r, hv, hr⟩
    exact ⟨v, r, value_fuel hv (by simp [fuelFor]), by simp [hr]⟩

end SecPlatform.Json
