import SecPlatform.Contracts.Lemmas.ObjectGraph

/-!
# The canonical encoding

The tokens of a normalized value make up its JSON text. Normalizing again changes nothing, and neither
does the order in which the keys of the source objects were inserted.
-/

namespace SecPlatform.Contracts

open Json (ownOrder)

/-! ## Own order -/

mutual
/-- The members of every object stand in own order. -/
def Ordered : Value → Prop
  | .arr items => OrderedItems items
  | .obj members => ownOrder members = members ∧ OrderedMembers members
  | .null | .bool _ | .num _ | .str _ => True

def OrderedItems : List Value → Prop
  | [] => True
  | v :: vs => Ordered v ∧ OrderedItems vs

def OrderedMembers : List (Text × Value) → Prop
  | [] => True
  | (_, v) :: ms => Ordered v ∧ OrderedMembers ms
end

theorem orderedMembers_iff {ms : List (Text × Value)} : OrderedMembers ms ↔ ∀ m ∈ ms, Ordered m.2 := by
  induction ms with
  | nil => simp [OrderedMembers]
  | cons m ms ih => obtain ⟨k, v⟩ := m; simp [OrderedMembers, ih]

mutual
theorem ordered_canonical : (v : Value) → Ordered (canonical v)
  | .arr items => ordered_canonicalItems items
  | .obj members => by
      refine ⟨Json.ownOrder_ownOrder _, orderedMembers_iff.mpr fun m hm => ?_⟩
      exact orderedMembers_iff.mp (ordered_canonicalMembers members) m ((canonicalOrder_perm _).mem_iff.mp hm)
  | .null | .bool _ | .num _ | .str _ => trivial

theorem ordered_canonicalItems : (vs : List Value) → OrderedItems (canonicalItems vs)
  | [] => trivial
  | v :: vs => ⟨ordered_canonical v, ordered_canonicalItems vs⟩

theorem ordered_canonicalMembers : (ms : List (Text × Value)) → OrderedMembers (canonicalMembers ms)
  | [] => trivial
  | (_, v) :: ms => ⟨ordered_canonical v, ordered_canonicalMembers ms⟩
end

/-! ## Tokens -/

/-- The tokens that the frames write in so many turns before they reach the frames below. -/
def Writes (turns : Nat) (frames : List TokenFrame) (tokens : List Text) : Prop :=
  ∀ fuel below, frameTokens (turns + fuel) (frames ++ below) = tokens ++ frameTokens fuel below

theorem Writes.nil : Writes 0 [] [] := fun fuel below => by simp

mutual
theorem writes_value : (v : Value) → Ordered v →
    ∃ tokens, Writes (turns v) (openToken v).2 tokens ∧ (openToken v).1 ++ tokens.flatten = v.render
  | .arr items, h => by
      obtain ⟨tokens, hw, htext⟩ := writes_items items h 0
      refine ⟨tokens, fun fuel below => hw fuel below, ?_⟩
      rw [htext]
      simp [openToken, Json.render, comma]
  | .obj members, h => by
      obtain ⟨tokens, hw, htext⟩ := writes_members members h.2 0
      refine ⟨tokens, fun fuel below => ?_, ?_⟩
      · rw [openToken, h.1]
        exact hw fuel below
      · rw [htext]
        simp [openToken, Json.render, comma]
  | .null, _ => ⟨[], .nil, by simp [openToken]⟩
  | .bool _, _ => ⟨[], .nil, by simp [openToken]⟩
  | .num _, _ => ⟨[], .nil, by simp [openToken]⟩
  | .str _, _ => ⟨[], .nil, by simp [openToken]⟩

theorem writes_items : (vs : List Value) → OrderedItems vs → (cursor : Nat) →
    ∃ tokens, Writes (turnsItems vs + 1) [.array cursor vs] tokens ∧
      tokens.flatten = (if vs = [] then [] else (comma cursor).flatten) ++ Json.renderItems vs ++ [unit ']']
  | [], _, cursor => by
      refine ⟨[[unit ']']], fun fuel below => ?_, by simp [Json.renderItems]⟩
      rw [turnsItems, Nat.zero_add, Nat.add_comm]
      rfl
  | v :: vs, h, cursor => by
      obtain ⟨first, hfirst, htext⟩ := writes_value v h.1
      obtain ⟨tokens, hw, htexts⟩ := writes_items vs h.2 (cursor + 1)
      refine ⟨comma cursor ++ (openToken v).1 :: first ++ tokens, fun fuel below => ?_, ?_⟩
      · have hturns : turnsItems (v :: vs) + 1 + fuel = (turns v + (turnsItems vs + 1 + fuel)) + 1 := by
          rw [turnsItems]; omega
        rw [hturns, List.singleton_append, frameTokens, hfirst]
        have hrest := hw fuel below
        rw [List.singleton_append] at hrest
        rw [hrest]
        simp
      · cases vs with
        | nil => simp [htexts, ← htext, Json.renderItems]
        | cons w vs => simp [htexts, ← htext, Json.renderItems, comma]

theorem writes_members : (ms : List (Text × Value)) → OrderedMembers ms → (cursor : Nat) →
    ∃ tokens, Writes (turnsMembers ms + 1) [.object cursor ms] tokens ∧
      tokens.flatten = (if ms = [] then [] else (comma cursor).flatten) ++ Json.renderMembers ms ++ [unit '\x7d']
  | [], _, cursor => by
      refine ⟨[[unit '\x7d']], fun fuel below => ?_, by simp [Json.renderMembers]⟩
      rw [turnsMembers, Nat.zero_add, Nat.add_comm]
      rfl
  | (k, v) :: ms, h, cursor => by
      obtain ⟨first, hfirst, htext⟩ := writes_value v h.1
      obtain ⟨tokens, hw, htexts⟩ := writes_members ms h.2 (cursor + 1)
      refine ⟨comma cursor ++ Json.quoted k :: [unit ':'] :: (openToken v).1 :: first ++ tokens, fun fuel below => ?_, ?_⟩
      · have hturns : turnsMembers ((k, v) :: ms) + 1 + fuel = (turns v + (turnsMembers ms + 1 + fuel)) + 1 := by
          rw [turnsMembers]; omega
        rw [hturns, List.singleton_append, frameTokens, hfirst]
        have hrest := hw fuel below
        rw [List.singleton_append] at hrest
        rw [hrest]
        simp
      · cases ms with
        | nil => simp [htexts, ← htext, Json.renderMembers]
        | cons m ms => simp [htexts, ← htext, Json.renderMembers, comma]
end

/-- The tokens of a normalized value are its JSON text in pieces. -/
theorem normalizedTokens_flatten {v : Value} (h : Ordered v) : (normalizedTokens v).flatten = v.render := by
  obtain ⟨tokens, hw, htext⟩ := writes_value v h
  have hall := hw 0 []
  rw [Nat.add_zero, List.append_nil] at hall
  rw [normalizedTokens, hall, List.flatten_cons, List.flatten_append, htext.symm]
  cases (turns v) <;> simp [frameTokens]

/-- Coalescing moves the borders of the chunks and nothing else. -/
theorem coalesce_flatten (batch : Nat) (buffered : Text) (tokens : List Text) :
    (coalesce batch buffered tokens).flatten = buffered ++ tokens.flatten := by
  induction tokens generalizing buffered with
  | nil =>
      unfold coalesce
      split
      · simp
      · rename_i h
        simp [List.eq_nil_of_length_eq_zero (Nat.eq_zero_of_not_pos h)]
  | cons token tokens ih =>
      unfold coalesce
      split <;> simp [ih]

theorem equalTokens_iff {as bs : List Text} : equalTokens as bs ↔ as = bs := by
  fun_induction equalTokens as bs <;> simp_all

/-! ## Normalizing again -/

theorem canonicalOrder_perm_eq {ms ns : List (Text × Value)} (h : ms.Perm ns) (hn : (ms.map Prod.fst).Nodup) :
    canonicalOrder ms = canonicalOrder ns := by
  refine congrArg ownOrder (sortBy_eq_of_perm h fun a ha b hb hab => ?_)
  exact List.inj_on_of_nodup_map hn ha hb hab

theorem filter_ownOrder {α : Type} (k : Text) (ms : List (Text × α)) :
    (Json.ownOrder ms).filter (fun m => m.1 = k) = ms.filter (fun m => m.1 = k) := by
  have hsame : ∀ a b : Text × α, decide (a.1 = k) → decide (b.1 = k) →
      (Json.arrayIndex? a.1).getD 0 = (Json.arrayIndex? b.1).getD 0 := by
    intro a b ha hb
    rw [of_decide_eq_true ha, of_decide_eq_true hb]
  rw [Json.ownOrder, List.filter_append, filter_sortBy hsame, List.filter_filter, List.filter_filter]
  -- The entries of one key stand in one of the two parts.
  cases hk : Json.arrayIndex? k with
  | none =>
      rw [List.filter_eq_nil_iff.mpr, List.nil_append]
      · refine List.filter_congr fun m hm => ?_
        by_cases hmk : m.1 = k <;> simp [hmk, hk]
      · intro m hm
        by_cases hmk : m.1 = k <;> simp [hmk, hk]
  | some index =>
      have hrest : ms.filter (fun m => decide (m.1 = k) && (Json.arrayIndex? m.1).isNone) = [] := by
        refine List.filter_eq_nil_iff.mpr fun m hm => ?_
        by_cases hmk : m.1 = k <;> simp [hmk, hk]
      rw [hrest, List.append_nil]
      refine List.filter_congr fun m hm => ?_
      by_cases hmk : m.1 = k <;> simp [hmk, hk]

theorem canonicalOrder_canonicalOrder {α : Type} (ms : List (Text × α)) :
    canonicalOrder (canonicalOrder ms) = canonicalOrder ms := by
  refine congrArg Json.ownOrder ((sortBy_eq_of_filter fun k => ?_).trans (sortBy_sortBy ms))
  have hfilter := filter_ownOrder k (sortBy Prod.fst ms)
  rw [canonicalOrder]
  convert hfilter

mutual
/-- Normalization is idempotent. -/
theorem canonical_canonical : (v : Value) → canonical (canonical v) = canonical v
  | .num n => by
      simp only [canonical]
      split <;> simp_all
  | .arr items => by simp only [canonical, canonical_canonicalItems items]
  | .obj members => by
      have hagain : canonicalMembers (canonicalOrder (canonicalMembers members)) =
          canonicalOrder (canonicalMembers members) := by
        rw [canonicalMembers_eq_map]
        refine (List.map_congr_left fun m hm => ?_).trans (List.map_id _)
        rw [canonical_canonicalMembers members m ((canonicalOrder_perm _).mem_iff.mp hm)]
        rfl
      simp only [canonical, hagain, canonicalOrder_canonicalOrder]
  | .null | .bool _ | .str _ => rfl

theorem canonical_canonicalItems : (vs : List Value) → canonicalItems (canonicalItems vs) = canonicalItems vs
  | [] => rfl
  | v :: vs => by simp only [canonicalItems, canonical_canonical v, canonical_canonicalItems vs]

theorem canonical_canonicalMembers : (ms : List (Text × Value)) → ∀ m ∈ canonicalMembers ms, canonical m.2 = m.2
  | [] => by simp [canonicalMembers]
  | (_, v) :: ms => by
      simp only [canonicalMembers, List.forall_mem_cons]
      exact ⟨canonical_canonical v, canonical_canonicalMembers ms⟩
end

mutual
theorem isFinite_canonical : (v : Value) → isFinite v → isFinite (canonical v)
  | .num n, h => by
      simp only [canonical, isFinite] at h ⊢
      split
      · rfl
      · exact h
  | .arr items, h => isFinite_canonicalItems items h
  | .obj members, h => by
      refine isFiniteMembers_iff.mpr fun m hm => ?_
      exact isFiniteMembers_iff.mp (isFinite_canonicalMembers members h) m ((canonicalOrder_perm _).mem_iff.mp hm)
  | .null, _ | .bool _, _ | .str _, _ => rfl

theorem isFinite_canonicalItems : (vs : List Value) → isFiniteItems vs → isFiniteItems (canonicalItems vs)
  | [], _ => rfl
  | v :: vs, h => by
      simp only [isFiniteItems, canonicalItems, Bool.and_eq_true] at h ⊢
      exact ⟨isFinite_canonical v h.1, isFinite_canonicalItems vs h.2⟩

theorem isFinite_canonicalMembers : (ms : List (Text × Value)) → isFiniteMembers ms → isFiniteMembers (canonicalMembers ms)
  | [], _ => rfl
  | (_, v) :: ms, h => by
      simp only [isFiniteMembers, canonicalMembers, Bool.and_eq_true] at h ⊢
      exact ⟨isFinite_canonical v h.1, isFinite_canonicalMembers ms h.2⟩
end

/-- The canonical text determines the canonical value. -/
theorem canonical_eq_of_encoding {v w : Value} (hv : isFinite v) (hw : isFinite w)
    (h : canonicalEncoding v = canonicalEncoding w) : canonical v = canonical w :=
  Json.render_injective (exact_canonical v hv) (exact_canonical w hw) h

/-! ## Canonical equality -/

theorem canonicalEquals_iff {v w : FiniteValue} : canonicalEquals v w ↔ canonical v.val = canonical w.val := by
  rw [canonicalEquals, equalTokens_iff]
  constructor
  · intro h
    have htext := congrArg List.flatten h
    rw [normalizedTokens_flatten (ordered_canonical _), normalizedTokens_flatten (ordered_canonical _)] at htext
    exact canonical_eq_of_encoding v.property w.property htext
  · exact congrArg normalizedTokens

/-- Objects have one canonical value when their canonical members agree up to order. -/
theorem canonical_obj_eq_iff {ms ns : List (Text × Value)} (h : (ms.map Prod.fst).Nodup) :
    canonical (.obj ms) = canonical (.obj ns) ↔ (canonicalMembers ms).Perm (canonicalMembers ns) := by
  simp only [canonical, Json.obj.injEq]
  constructor
  · intro heq
    exact (canonicalOrder_perm _).symm.trans ((List.Perm.of_eq heq).trans (canonicalOrder_perm _))
  · intro hperm
    refine canonicalOrder_perm_eq hperm ?_
    rw [keys_canonicalMembers]
    exact h

/-- Equal objects agree on each member. -/
theorem get?_eq_of_canonical_eq {ms ns : List (Text × Value)} (hm : (ms.map Prod.fst).Nodup)
    (hn : (ns.map Prod.fst).Nodup) (h : canonical (.obj ms) = canonical (.obj ns)) (k : Text) :
    (Json.get? k ms).map canonical = (Json.get? k ns).map canonical := by
  rw [← get?_canonical hm, ← get?_canonical hn]
  simp only [canonical, Json.obj.injEq] at h
  rw [h]

/-! ## Insertion order -/

/-- Two trees that differ in the order of keys only, in any objects at any depth. -/
inductive KeyOrder : Value → Value → Prop
  | refl (v) : KeyOrder v v
  | trans {u v w} (h : KeyOrder u v) (h' : KeyOrder v w) : KeyOrder u w
  | keys {ms ns} (h : ms.Perm ns) : KeyOrder (.obj ms) (.obj ns)
  | element {v w} (vs ws) (h : KeyOrder v w) : KeyOrder (.arr (vs ++ v :: ws)) (.arr (vs ++ w :: ws))
  | member {v w} (k ms ns) (h : KeyOrder v w) : KeyOrder (.obj (ms ++ (k, v) :: ns)) (.obj (ms ++ (k, w) :: ns))

theorem KeyOrder.canonical {v w : Value} (h : KeyOrder v w) (hv : v.UniqueKeys) :
    w.UniqueKeys ∧ canonical v = canonical w := by
  induction h with
  | refl => exact ⟨hv, rfl⟩
  | trans _ _ ih ih' =>
      obtain ⟨hmid, heq⟩ := ih hv
      obtain ⟨hw, heq'⟩ := ih' hmid
      exact ⟨hw, heq.trans heq'⟩
  | @keys ms ns h =>
      refine ⟨⟨((h.map Prod.fst).nodup_iff).mp hv.1, ?_⟩, ?_⟩
      · exact Json.uniqueKeysMembers_iff.mpr fun m hm => Json.uniqueKeysMembers_iff.mp hv.2 m (h.mem_iff.mpr hm)
      · simp only [Contracts.canonical, canonicalMembers_eq_map]
        refine congrArg Json.obj (canonicalOrder_perm_eq (h.map _) ?_)
        rw [← canonicalMembers_eq_map, keys_canonicalMembers]
        exact hv.1
  | @element v w vs ws _ ih =>
      have hitems : ∀ u ∈ vs ++ v :: ws, u.UniqueKeys := ObjectGraph.uniqueKeysItems_iff.mp hv
      obtain ⟨hw, heq⟩ := ih (hitems v (by simp))
      refine ⟨ObjectGraph.uniqueKeysItems_iff.mpr fun u hu => ?_, ?_⟩
      · rcases List.mem_append.mp hu with hu | hu
        · exact hitems u (by simp [hu])
        · rcases List.mem_cons.mp hu with rfl | hu
          · exact hw
          · exact hitems u (by simp [hu])
      · simp [Contracts.canonical, ObjectGraph.canonicalItems_eq_map, heq]
  | @member v w k ms ns _ ih =>
      have hmembers : ∀ m ∈ ms ++ (k, v) :: ns, m.2.UniqueKeys := Json.uniqueKeysMembers_iff.mp hv.2
      obtain ⟨hw, heq⟩ := ih (hmembers (k, v) (by simp))
      refine ⟨⟨?_, Json.uniqueKeysMembers_iff.mpr fun m hm => ?_⟩, ?_⟩
      · simpa using hv.1
      · rcases List.mem_append.mp hm with hm | hm
        · exact hmembers m (by simp [hm])
        · rcases List.mem_cons.mp hm with rfl | hm
          · exact hw
          · exact hmembers m (by simp [hm])
      · simp [Contracts.canonical, canonicalMembers_eq_map, heq]

end SecPlatform.Contracts
