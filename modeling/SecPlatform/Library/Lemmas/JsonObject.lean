import Mathlib.Algebra.Order.BigOperators.Group.List
import SecPlatform.Library.Json
import SecPlatform.Library.Lemmas.JsonRoundTrip
import SecPlatform.Library.Lemmas.Lexing

/-!
# Objects whose keys are all different

A member is found under its key whatever the order of the members, and the value of a tree without repeated
keys has the members of the tree.
-/

namespace SecPlatform.Json

variable {α : Type}

/-! ## Members under their keys -/

theorem get?_of_mem {ν : Type} {ms : List (Text × Json ν)} (hn : (ms.map Prod.fst).Nodup) {k : Text} {v : Json ν}
    (h : (k, v) ∈ ms) : get? k ms = some v := by
  induction ms with
  | nil => cases h
  | cons m ms ih =>
      obtain ⟨l, w⟩ := m
      simp only [List.map_cons, List.nodup_cons] at hn
      rcases List.mem_cons.mp h with heq | h
      · cases heq; simp [get?]
      · have hne : l ≠ k := by
          rintro rfl
          exact hn.1 (List.mem_map.mpr ⟨_, h, rfl⟩)
        rw [get?, if_neg hne, ih hn.2 h]

theorem mem_of_get? {ν : Type} {ms : List (Text × Json ν)} {k : Text} {v : Json ν} (h : get? k ms = some v) :
    (k, v) ∈ ms := by
  induction ms with
  | nil => cases h
  | cons m ms ih =>
      obtain ⟨l, w⟩ := m
      rw [get?] at h
      split at h
      · rename_i he
        cases h; subst he; simp
      · exact List.mem_cons_of_mem _ (ih h)

/-- The order of the members does not matter to a lookup. -/
theorem get?_perm {ν : Type} {ms ms' : List (Text × Json ν)} (h : ms.Perm ms') (hn : (ms.map Prod.fst).Nodup)
    (k : Text) : get? k ms = get? k ms' := by
  have hn' : (ms'.map Prod.fst).Nodup := (h.map Prod.fst).nodup_iff.mp hn
  apply Option.ext
  intro v
  exact ⟨fun hv => get?_of_mem hn' (h.mem_iff.mp (mem_of_get? hv)),
    fun hv => get?_of_mem hn (h.mem_iff.mpr (mem_of_get? hv))⟩

/-- A key finds what it was defined as, the other keys find what they found before. -/
theorem get?_define {ν : Type} (ms : List (Text × Json ν)) (k l : Text) (v : Json ν) :
    get? l (define ms k v) = if k = l then some v else get? l ms := by
  induction ms with
  | nil => simp [define, get?]
  | cons m ms ih =>
      obtain ⟨j, w⟩ := m
      rw [define]
      by_cases hj : j = k
      · subst hj
        rw [if_pos rfl, get?, get?]
        split <;> rfl
      · rw [if_neg hj, get?, get?, ih]
        by_cases hl : j = l
        · rw [if_pos hl, if_pos hl, if_neg (by rintro rfl; exact hj hl)]
        · rw [if_neg hl, if_neg hl]

/-- To define a key as what it is changes nothing. -/
theorem define_of_get? {ν : Type} {ms : List (Text × Json ν)} {k : Text} {v : Json ν} (h : get? k ms = some v) :
    define ms k v = ms := by
  induction ms with
  | nil => cases h
  | cons m ms ih =>
      obtain ⟨j, w⟩ := m
      rw [get?] at h
      rw [define]
      split at h
      · rename_i hj
        cases h
        rw [if_pos hj]
      · rename_i hj
        rw [if_neg hj, ih h]

/-! ## Own order -/

theorem ownOrder_perm (ms : List (Text × α)) : (ownOrder ms).Perm ms := by
  have hsplit := List.filter_append_perm (fun m : Text × α => (arrayIndex? m.1).isSome) ms
  refine ((sortBy_perm _).append_right _).trans ?_
  convert hsplit using 3
  simp

theorem ownOrder_ownOrder (ms : List (Text × α)) : ownOrder (ownOrder ms) = ownOrder ms := by
  have hindex : ∀ m ∈ sortBy (fun m => (arrayIndex? m.1).getD 0) (ms.filter fun m => (arrayIndex? m.1).isSome),
      (arrayIndex? m.1).isSome := fun m hm => (List.mem_filter.mp (mem_sortBy.mp hm)).2
  have hother : ∀ m ∈ ms.filter (fun m => (arrayIndex? m.1).isNone), (arrayIndex? m.1).isNone :=
    fun m hm => (List.mem_filter.mp hm).2
  have hsome : (ownOrder ms).filter (fun m => (arrayIndex? m.1).isSome) =
      sortBy (fun m => (arrayIndex? m.1).getD 0) (ms.filter fun m => (arrayIndex? m.1).isSome) := by
    unfold ownOrder
    generalize sortBy (fun m => (arrayIndex? m.1).getD 0) (ms.filter fun m => (arrayIndex? m.1).isSome) = is at hindex
    generalize ms.filter (fun m => (arrayIndex? m.1).isNone) = os at hother
    rw [List.filter_append, List.filter_eq_self.mpr hindex,
      List.filter_eq_nil_iff.mpr fun m hm => by simpa using hother m hm, List.append_nil]
  have hnone : (ownOrder ms).filter (fun m => (arrayIndex? m.1).isNone) =
      ms.filter fun m => (arrayIndex? m.1).isNone := by
    unfold ownOrder
    generalize sortBy (fun m => (arrayIndex? m.1).getD 0) (ms.filter fun m => (arrayIndex? m.1).isSome) = is at hindex
    generalize ms.filter (fun m => (arrayIndex? m.1).isNone) = os at hother
    rw [List.filter_append, List.filter_eq_self.mpr hother,
      List.filter_eq_nil_iff.mpr fun m hm => by simpa [Option.isSome_iff_ne_none] using hindex m hm, List.nil_append]
  show sortBy _ ((ownOrder ms).filter _) ++ (ownOrder ms).filter _ = ownOrder ms
  rw [hsome, hnone, sortBy_sortBy]
  rfl

theorem ownOrder_eq_self {ms : List (Text × α)} (h : ∀ k ∈ ms.map Prod.fst, arrayIndex? k = none) :
    ownOrder ms = ms := by
  have hnone : ∀ m ∈ ms, arrayIndex? m.1 = none := fun m hm => h m.1 (List.mem_map_of_mem hm)
  rw [ownOrder, List.filter_eq_nil_iff.mpr fun m hm => by simp [hnone m hm],
    List.filter_eq_self.mpr fun m hm => by simp [hnone m hm]]
  rfl

/-! ## Trees without repeated keys -/

theorem define_of_notMem {ms : List (Text × α)} {k : Text} {v : α} (h : k ∉ ms.map Prod.fst) :
    define ms k v = ms ++ [(k, v)] := by
  induction ms with
  | nil => rfl
  | cons m ms ih =>
      obtain ⟨l, w⟩ := m
      simp only [List.map_cons, List.mem_cons, not_or] at h
      rw [define, if_neg (Ne.symm h.1), ih h.2]
      rfl

theorem foldl_define {ms acc : List (Text × α)} (h : ((acc ++ ms).map Prod.fst).Nodup) :
    ms.foldl (fun ms m => define ms m.1 m.2) acc = acc ++ ms := by
  induction ms generalizing acc with
  | nil => simp
  | cons m ms ih =>
      have hm : m.1 ∉ acc.map Prod.fst := by
        intro hmem
        rw [List.map_append, List.nodup_append] at h
        exact h.2.2 m.1 hmem m.1 (by simp) rfl
      rw [List.foldl_cons, define_of_notMem hm, ih (by simpa using h)]
      simp

theorem ofTreeMembers_eq_map {ν : Type} (ms : List (Text × Json ν)) :
    ofTreeMembers ms = ms.map fun m => (m.1, ofTree m.2) := by
  induction ms with
  | nil => rfl
  | cons m ms ih => obtain ⟨k, v⟩ := m; simp [ofTreeMembers, ih]

theorem uniqueKeysItems_iff {ν : Type} {vs : List (Json ν)} : UniqueKeysItems vs ↔ ∀ v ∈ vs, v.UniqueKeys := by
  induction vs with
  | nil => simp [UniqueKeysItems]
  | cons v vs ih => simp [UniqueKeysItems, ih]

theorem uniqueKeysMembers_iff {ν : Type} {ms : List (Text × Json ν)} :
    UniqueKeysMembers ms ↔ ∀ m ∈ ms, m.2.UniqueKeys := by
  induction ms with
  | nil => simp [UniqueKeysMembers]
  | cons m ms ih => obtain ⟨k, v⟩ := m; simp [UniqueKeysMembers, ih]

theorem exactMembers_iff {ν : Type} [JsonNumber ν] {ms : List (Text × Json ν)} :
    ExactMembers ms ↔ ∀ m ∈ ms, m.2.Exact := by
  induction ms with
  | nil => simp [ExactMembers]
  | cons m ms ih => obtain ⟨k, v⟩ := m; simp [ExactMembers, ih]

/-- An object written down is read back when its keys are different and no array indices. -/
theorem parse_render_obj {ν : Type} [JsonNumber ν] {ms : List (Text × Json ν)} (hexact : ∀ m ∈ ms, m.2.Exact)
    (hnodup : (ms.map Prod.fst).Nodup) (hindex : ∀ k ∈ ms.map Prod.fst, arrayIndex? k = none)
    (hvalues : ∀ m ∈ ms, ofTree m.2 = m.2) : parse (render (.obj ms)) = some (.obj ms) := by
  have hmembers : ofTreeMembers ms = ms := by
    rw [ofTreeMembers_eq_map]
    exact (List.map_congr_left fun m hm => by rw [hvalues m hm, id]).trans (List.map_id _)
  have hobj : ofTree (.obj ms) = .obj ms := by
    rw [ofTree, hmembers, foldl_define (by simpa using hnodup), List.nil_append, ownOrder_eq_self hindex]
  rw [parse, document_render (v := .obj ms) (exactMembers_iff.mpr hexact), Option.map_some, hobj]

/-! ## No line break in a text -/

theorem lineBreak_notMem_escape (s : Text) : (0xA : CodeUnit) ∉ escape s := by
  have hhex (n : Nat) : hexDigit n ≠ 0xA := by
    have hlt : n % 16 < 16 := Nat.mod_lt _ (by decide)
    unfold hexDigit
    generalize n % 16 = m at hlt
    interval_cases m <;> decide
  have hunicode (c : CodeUnit) : (0xA : CodeUnit) ∉ unicodeEscape c := by
    simp only [unicodeEscape, hexText, List.mem_cons, List.not_mem_nil, or_false, not_or]
    exact ⟨by decide, by decide, (hhex _).symm, (hhex _).symm, (hhex _).symm, (hhex _).symm⟩
  have hunit (c : CodeUnit) : (0xA : CodeUnit) ∉ escapeUnit c := by
    unfold escapeUnit
    split_ifs with _ _ h
    any_goals decide
    · exact hunicode c
    · simp only [List.mem_singleton]; exact fun e => h e.symm
  have heither (c : CodeUnit) : (0xA : CodeUnit) ∉
      (if Text.isLeadSurrogate c || Text.isTrailSurrogate c then unicodeEscape c else escapeUnit c) := by
    split
    · exact hunicode c
    · exact hunit c
  induction s using escape.induct with
  | case1 => simp [escape]
  | case2 c _ => exact heither c
  | case3 c _ => exact heither c
  | case4 c d rest hpair ih =>
      rw [escape, if_pos hpair]
      simp only [Bool.and_eq_true] at hpair
      simp only [List.mem_cons, not_or]
      refine ⟨?_, ?_, ih⟩
      · rintro rfl; exact absurd hpair.1 (by decide)
      · rintro rfl; exact absurd hpair.2 (by decide)
  | case5 c d rest hpair ih =>
      rw [escape, if_neg hpair, List.mem_append, not_or]
      exact ⟨heither c, ih⟩

theorem lineBreak_notMem_quoted (s : Text) : (0xA : CodeUnit) ∉ quoted s := by
  simp only [quoted, List.mem_cons, List.mem_append, not_or]
  exact ⟨by decide, lineBreak_notMem_escape s, by decide⟩

section LineBreak

variable {ν : Type} [JsonNumber ν]

theorem lineBreak_notMem_renderNumber {n : ν} (h : ExactNumber n) : (0xA : CodeUnit) ∉ renderNumber n := by
  obtain ⟨l, hl, _⟩ := h
  simp only [renderNumber, hl]
  intro hm
  rcases NumberLiteral.isUnit_text hm with h | h | h | h | h | ⟨d, h⟩
  · exact absurd h (by decide)
  · exact absurd h (by decide)
  · exact absurd h (by decide)
  · exact absurd h (by decide)
  · exact absurd h (by decide)
  · revert h; revert d; decide

mutual
/-- The text of a value has no line break. -/
theorem lineBreak_notMem_render : (v : Json ν) → v.Exact → (0xA : CodeUnit) ∉ render v
  | .null, _ => by simp only [render]; decide
  | .bool true, _ => by simp only [render]; decide
  | .bool false, _ => by simp only [render]; decide
  | .num _, h => lineBreak_notMem_renderNumber h
  | .str s, _ => lineBreak_notMem_quoted s
  | .arr items, h => by
      simp only [render, List.mem_cons, List.mem_append, not_or]
      exact ⟨by decide, lineBreak_notMem_renderItems items h, by decide⟩
  | .obj members, h => by
      simp only [render, List.mem_cons, List.mem_append, not_or]
      exact ⟨by decide, lineBreak_notMem_renderMembers members h, by decide⟩

theorem lineBreak_notMem_renderItems : (vs : List (Json ν)) → ExactItems vs → (0xA : CodeUnit) ∉ renderItems vs
  | [], _ => by simp [renderItems]
  | [v], h => lineBreak_notMem_render v h.1
  | v :: w :: vs, h => by
      simp only [renderItems, List.mem_append, List.mem_cons, not_or]
      exact ⟨lineBreak_notMem_render v h.1, by decide, lineBreak_notMem_renderItems (w :: vs) h.2⟩

theorem lineBreak_notMem_renderMembers : (ms : List (Text × Json ν)) → ExactMembers ms →
    (0xA : CodeUnit) ∉ renderMembers ms
  | [], _ => by simp [renderMembers]
  | [(k, v)], h => by
      simp only [renderMembers, List.mem_append, List.mem_cons, not_or]
      exact ⟨lineBreak_notMem_quoted k, by decide, lineBreak_notMem_render v h.1⟩
  | (k, v) :: m :: ms, h => by
      simp only [renderMembers, List.mem_append, List.mem_cons, not_or]
      exact ⟨⟨lineBreak_notMem_quoted k, by decide, lineBreak_notMem_render v h.1⟩, by decide,
        lineBreak_notMem_renderMembers (m :: ms) h.2⟩
end

end LineBreak

end SecPlatform.Json

/-!
## The size of a JSON text

Texts without quotes, backslashes and control characters are written as they are. The length of an object is
bounded by the sum over its members, so that it does not depend on their order.
-/

namespace SecPlatform.Json

/-! ### Plain texts -/

/-- A printable ASCII character that needs no escape. -/
def IsPlain (c : CodeUnit) : Prop := 0x20 ≤ c.val ∧ c.val < 0x80 ∧ c.val ≠ 0x22 ∧ c.val ≠ 0x5C

def Plain (s : Text) : Prop := ∀ c ∈ s, IsPlain c

instance (c : CodeUnit) : Decidable (IsPlain c) := inferInstanceAs (Decidable (_ ∧ _))

instance (s : Text) : Decidable (Plain s) := decidable_of_iff (s.all fun c => IsPlain c) (by simp [Plain])

theorem IsPlain.noSurrogate {c : CodeUnit} (h : IsPlain c) :
    Text.isLeadSurrogate c = false ∧ Text.isTrailSurrogate c = false := by
  obtain ⟨_, hlt, _⟩ := h
  constructor <;>
    simp only [Text.isLeadSurrogate, Text.isTrailSurrogate, Bool.and_eq_false_iff, decide_eq_false_iff_not] <;>
    refine .inl fun hle => ?_ <;>
    exact absurd (lt_of_le_of_lt (Fin.le_def.mp hle) hlt) (by decide)

theorem escapeUnit_plain {c : CodeUnit} (h : IsPlain c) : escapeUnit c = [c] := by
  obtain ⟨hlow, _, hquote, hback⟩ := h
  have hne (d : CodeUnit) (hd : d.val < 0x20) : c ≠ d := by rintro rfl; omega
  unfold Json.escapeUnit
  rw [if_neg (hne _ (by decide)), if_neg (hne _ (by decide)), if_neg (hne _ (by decide)), if_neg (hne _ (by decide)),
    if_neg (hne _ (by decide)), if_neg, if_neg, if_neg]
  · exact not_lt.mpr (Fin.le_def.mpr hlow)
  · rintro rfl; exact hback rfl
  · rintro rfl; exact hquote rfl

theorem escape_plain {s : Text} (h : Plain s) : escape s = s := by
  induction s using Json.escape.induct with
  | case1 => rfl
  | case2 c hc =>
      obtain ⟨hlead, htrail⟩ := (h c (by simp)).noSurrogate
      simp [hlead, htrail] at hc
  | case3 c hc => rw [Json.escape, if_neg hc, escapeUnit_plain (h c (by simp))]
  | case4 c d rest hpair ih =>
      simp [(h c (by simp)).noSurrogate.1] at hpair
  | case5 c d rest hpair ih =>
      obtain ⟨hlead, htrail⟩ := (h c (by simp)).noSurrogate
      rw [Json.escape, if_neg hpair, if_neg (by simp [hlead, htrail]), escapeUnit_plain (h c (by simp)),
        ih fun e he => h e (List.mem_cons_of_mem _ he)]
      rfl

theorem quoted_plain {s : Text} (h : Plain s) : quoted s = 0x22 :: (s ++ [0x22]) := by
  rw [Json.quoted, escape_plain h]

theorem Plain.length_quoted {s : Text} (h : Plain s) : (quoted s).length = s.length + 2 := by
  rw [quoted_plain h]; simp

theorem Plain.isAscii {s : Text} (h : Plain s) : s.IsAscii := fun c hc => Fin.lt_def.mpr (h c hc).2.1

theorem Plain.isAscii_quoted {s : Text} (h : Plain s) : (quoted s).IsAscii := by
  rw [quoted_plain h]
  intro c hc
  simp only [List.mem_cons, List.mem_append, List.not_mem_nil, or_false] at hc
  obtain rfl | hc | rfl := hc
  · decide
  · exact h.isAscii c hc
  · decide

/-! ### Containers -/

section Render

variable {ν : Type} [JsonNumber ν]

/-- What a member takes at most: its key, the colon, its value and the comma behind. -/
def memberSize (m : Text × Json ν) : Nat := (quoted m.1).length + (render m.2).length + 2

theorem length_renderMembers (ms : List (Text × Json ν)) : (renderMembers ms).length ≤ (ms.map memberSize).sum := by
  induction ms with
  | nil => simp [renderMembers]
  | cons m ms ih =>
      obtain ⟨k, v⟩ := m
      cases ms with
      | nil => simp [renderMembers, memberSize]; omega
      | cons m' ms =>
          rw [List.map_cons, List.sum_cons, renderMembers]
          simp only [List.length_append, List.length_cons, memberSize] at ih ⊢
          omega

theorem length_render_obj (ms : List (Text × Json ν)) : (render (.obj ms)).length ≤ (ms.map memberSize).sum + 2 := by
  have := length_renderMembers ms
  simp only [render, List.length_cons, List.length_append, List.length_nil]
  omega

theorem length_renderItems (vs : List (Json ν)) :
    (renderItems vs).length ≤ (vs.map fun v => (render v).length + 1).sum := by
  induction vs with
  | nil => simp [renderItems]
  | cons v vs ih =>
      cases vs with
      | nil => simp [renderItems]
      | cons w vs =>
          rw [List.map_cons, List.sum_cons, renderItems]
          simp only [List.length_append, List.length_cons] at ih ⊢
          omega

theorem isAscii_cons {c : CodeUnit} {s : Text} (hc : c < 0x80) (hs : s.IsAscii) : Text.IsAscii (c :: s) :=
  List.forall_mem_cons.mpr ⟨hc, hs⟩

theorem isAscii_renderItems {vs : List (Json ν)} (h : ∀ v ∈ vs, (render v).IsAscii) : (renderItems vs).IsAscii := by
  induction vs with
  | nil => simp [renderItems, Text.IsAscii]
  | cons v vs ih =>
      have hv := h v (by simp)
      cases vs with
      | nil => exact hv
      | cons w vs =>
          rw [renderItems]
          exact hv.append (isAscii_cons (by decide) (ih fun x hx => h x (List.mem_cons_of_mem _ hx)))

theorem isAscii_render_arr {vs : List (Json ν)} (h : ∀ v ∈ vs, (render v).IsAscii) : (render (.arr vs)).IsAscii := by
  rw [render]
  exact isAscii_cons (by decide) ((isAscii_renderItems h).append (isAscii_cons (by decide) (by simp [Text.IsAscii])))

theorem isAscii_renderMembers {ms : List (Text × Json ν)}
    (h : ∀ m ∈ ms, (quoted m.1).IsAscii ∧ (render m.2).IsAscii) : (renderMembers ms).IsAscii := by
  induction ms with
  | nil => simp [renderMembers, Text.IsAscii]
  | cons m ms ih =>
      obtain ⟨hk, hv⟩ := h m (by simp)
      obtain ⟨k, v⟩ := m
      cases ms with
      | nil =>
          rw [renderMembers]
          exact hk.append (isAscii_cons (by decide) hv)
      | cons m' ms =>
          rw [renderMembers]
          exact (hk.append (isAscii_cons (by decide) hv)).append
            (isAscii_cons (by decide) (ih fun x hx => h x (List.mem_cons_of_mem _ hx)))

theorem isAscii_render_obj {ms : List (Text × Json ν)}
    (h : ∀ m ∈ ms, (quoted m.1).IsAscii ∧ (render m.2).IsAscii) : (render (.obj ms)).IsAscii := by
  rw [render]
  exact isAscii_cons (by decide) ((isAscii_renderMembers h).append (isAscii_cons (by decide) (by simp [Text.IsAscii])))

end Render

/-! ### Natural numbers -/

theorem renderNumber_ofNat {n : Nat} (h : n < 10 ^ 21) :
    renderNumber (JsNumber.ofNat n) = (Digit.ofNat n).map Digit.text := by
  have hl : JsonNumber.literal? (JsNumber.ofNat n) = some ⟨false, Digit.ofNat n, [], none⟩ := JsNumber.literal?_ofNat h
  simp [renderNumber, hl, NumberLiteral.text, NumberLiteral.fractionText, NumberLiteral.exponentText]

theorem length_renderNumber_ofNat {n k : Nat} (hk : 0 < k) (hk' : k ≤ 21) (h : n < 10 ^ k) :
    (renderNumber (JsNumber.ofNat n)).length ≤ k := by
  rw [renderNumber_ofNat (lt_of_lt_of_le h (Nat.pow_le_pow_right (by decide) hk')), List.length_map]
  exact Digit.length_ofNat_le hk h

theorem isAscii_renderNumber_ofNat {n : Nat} (h : n < 10 ^ 21) : (renderNumber (JsNumber.ofNat n)).IsAscii := by
  rw [renderNumber_ofNat h]
  intro c hc
  obtain ⟨d, _, rfl⟩ := List.mem_map.mp hc
  have hall : ∀ d : Digit, d.text < 0x80 := by decide
  exact hall d

end SecPlatform.Json
