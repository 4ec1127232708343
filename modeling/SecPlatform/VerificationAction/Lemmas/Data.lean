import SecPlatform.Contracts.Lemmas.Canonical
import SecPlatform.Contracts.Lemmas.ExactJsonAgreement
import SecPlatform.VerificationAction.Data

/-!
# Values as they are written

A value whose objects have their keys in order, and whose numbers and arrays are ordinary, is its own encoding:
it passes every check of ordinary data, sorting leaves it alone and its text is read back as the value.
-/

namespace SecPlatform.VerificationAction

open Contracts

/-! ## Written values -/

/-- The keys of an object in order, none of them an index or a hook. -/
def WrittenKeys (keys : List Text) : Prop :=
  keys.Pairwise (· < ·) ∧ ∀ key ∈ keys, key ≠ "toJSON" ∧ Json.arrayIndex? key = none

instance (keys : List Text) : Decidable (WrittenKeys keys) := inferInstanceAs (Decidable (_ ∧ _))

mutual
def Written : Value → Prop
  | .num n => n.isFinite ∧ n ≠ .zero true
  | .arr items => items.length ≤ maximumArrayLength ∧ WrittenItems items
  | .obj members => WrittenKeys (members.map Prod.fst) ∧ WrittenMembers members
  | .null | .bool _ | .str _ => True

def WrittenItems : List Value → Prop
  | [] => True
  | v :: vs => Written v ∧ WrittenItems vs

def WrittenMembers : List (Text × Value) → Prop
  | [] => True
  | (_, v) :: ms => Written v ∧ WrittenMembers ms
end

theorem writtenItems_iff {items : List Value} : WrittenItems items ↔ ∀ v ∈ items, Written v := by
  induction items with
  | nil => simp [WrittenItems]
  | cons v vs ih => simp [WrittenItems, ih]

theorem writtenMembers_iff {members : List (Text × Value)} : WrittenMembers members ↔ ∀ m ∈ members, Written m.2 := by
  induction members with
  | nil => simp [WrittenMembers]
  | cons m ms ih => obtain ⟨k, v⟩ := m; simp [WrittenMembers, ih]

@[simp] theorem written_str (t : Text) : Written (.str t) := trivial

@[simp] theorem written_null : Written .null := trivial

@[simp] theorem written_ofNat (n : Nat) : Written (.num (.ofNat n)) :=
  ⟨JsNumber.isFinite_ofNat n, JsNumber.ofNat_ne_negZero n⟩

theorem written_arr {items : List Value} (h : items.length ≤ maximumArrayLength) (hitems : ∀ v ∈ items, Written v) :
    Written (.arr items) := ⟨h, writtenItems_iff.mpr hitems⟩

theorem written_obj {members : List (Text × Value)} (h : WrittenKeys (members.map Prod.fst))
    (hmembers : ∀ m ∈ members, Written m.2) : Written (.obj members) := ⟨h, writtenMembers_iff.mpr hmembers⟩

theorem Written.length {items : List Value} (h : Written (.arr items)) : items.length ≤ maximumArrayLength := h.1

theorem Written.value {members : List (Text × Value)} (h : Written (.obj members)) {m : Text × Value} (hm : m ∈ members) :
    Written m.2 := writtenMembers_iff.mp h.2 m hm

theorem Written.nodup {members : List (Text × Value)} (h : Written (.obj members)) : (members.map Prod.fst).Nodup :=
  h.1.1.imp ne_of_lt

/-! ## Checks of ordinary data -/

mutual
theorem assertOrdinaryData_written : (v : Value) → (label : Text) → Written v → assertOrdinaryData label v = .ok ()
  | .null, _, _ | .bool _, _, _ | .str _, _, _ => rfl
  | .num _, _, h => require_eq_ok.mpr h.1
  | .arr items, label, h => check_bind_eq_ok.mpr ⟨require_eq_ok.mpr h.1, assertOrdinaryItems_written items label 0 h.2⟩
  | .obj members, label, h =>
      assertOrdinaryMembers_written members label (fun k hk => (h.1.2 k hk).1) h.2

theorem assertOrdinaryItems_written : (vs : List Value) → (label : Text) → (index : Nat) → WrittenItems vs →
    assertOrdinaryItems label index vs = .ok ()
  | [], _, _, _ => rfl
  | v :: vs, label, index, h =>
      check_bind_eq_ok.mpr ⟨assertOrdinaryData_written v _ h.1, assertOrdinaryItems_written vs label (index + 1) h.2⟩

theorem assertOrdinaryMembers_written : (ms : List (Text × Value)) → (label : Text) →
    (∀ k ∈ ms.map Prod.fst, k ≠ "toJSON") → WrittenMembers ms → assertOrdinaryMembers label ms = .ok ()
  | [], _, _, _ => rfl
  | (k, v) :: ms, label, hkeys, h =>
      check_bind_eq_ok.mpr ⟨require_eq_ok.mpr (hkeys k (by simp)), check_bind_eq_ok.mpr
        ⟨assertOrdinaryData_written v _ h.1,
          assertOrdinaryMembers_written ms label (fun k hk => hkeys k (List.mem_cons_of_mem _ hk)) h.2⟩⟩
end

/-- The order of the members is of no account to the check. -/
theorem ordinaryRecord_perm {members members' : List (Text × Value)} (h : Written (.obj members))
    (hperm : members'.Perm members) (label : Text) : ordinaryRecord (.obj members') label = .ok members' := by
  have hkeys : ∀ k ∈ members'.map Prod.fst, k ≠ "toJSON" := fun k hk => (h.1.2 k ((hperm.map _).mem_iff.mp hk)).1
  have hvalues : WrittenMembers members' := writtenMembers_iff.mpr fun m hm => h.value (hperm.mem_iff.mp hm)
  rw [ordinaryRecord, assertOrdinaryData, assertOrdinaryMembers_written _ _ hkeys hvalues]
  rfl

theorem ordinaryRecord_written {members : List (Text × Value)} (h : Written (.obj members)) (label : Text) :
    ordinaryRecord (.obj members) label = .ok members := ordinaryRecord_perm h (.refl _) label

theorem ordinaryArray_written {items : List Value} (h : Written (.arr items)) (label : Text) :
    ordinaryArray (.arr items) label = .ok ⟨items, h.length⟩ := by
  rw [ordinaryArray, assertOrdinaryData_written _ _ h, ok_bind]
  exact dif_pos h.1

theorem exactKeys_written {members : List (Text × Value)} {keys : List Text} (h : (members.map Prod.fst).Perm keys)
    (label : Text) : exactKeys members keys label = .ok () :=
  require_eq_ok.mpr (sortBy_id_eq_of_perm h)

/-- The value found under a key of a record whose keys are all different. -/
theorem member_of_mem {ms : List (Text × Value)} (h : (ms.map Prod.fst).Nodup) {m : Text × Value} (hm : m ∈ ms) :
    member ms m.1 = m.2 := by
  rw [member, Json.get?_of_mem h hm, Option.getD_some]

theorem member_perm {members members' : List (Text × Value)} (h : Written (.obj members)) (hperm : members'.Perm members)
    (key : Text) : member members' key = member members key := by
  rw [member, member, Json.get?_perm hperm.symm h.nodup]

theorem member_written {members : List (Text × Value)} (h : Written (.obj members)) {key : Text} {value : Value}
    (hm : (key, value) ∈ members) : member members key = value := by
  rw [member, Json.get?_of_mem h.nodup hm, Option.getD_some]

/-! ## Encoding and reading back -/

mutual
theorem sorted_written : (v : Value) → Written v → sorted v = v
  | .null, _ | .bool _, _ | .str _, _ => rfl
  | .num n, h => by rw [sorted, if_neg h.2]
  | .arr items, h => by rw [sorted, sortedItems_written items h.2]
  | .obj members, h => by
      rw [sorted, sortedMembers_written members h.2, sortBy_of_pairwise]
      exact (List.pairwise_map.mp h.1.1).imp le_of_lt

theorem sortedItems_written : (vs : List Value) → WrittenItems vs → sortedItems vs = vs
  | [], _ => rfl
  | v :: vs, h => by rw [sortedItems, sorted_written v h.1, sortedItems_written vs h.2]

theorem sortedMembers_written : (ms : List (Text × Value)) → WrittenMembers ms → sortedMembers ms = ms
  | [], _ => rfl
  | (k, v) :: ms, h => by rw [sortedMembers, sorted_written v h.1, sortedMembers_written ms h.2]
end

mutual
theorem canonical_written : (v : Value) → Written v → canonical v = v
  | .null, _ | .bool _, _ | .str _, _ => rfl
  | .num n, h => by rw [canonical, if_neg h.2]
  | .arr items, h => by rw [canonical, canonicalItems_written items h.2]
  | .obj members, h => by
      rw [canonical, canonicalMembers_written members h.2, canonicalOrder, sortBy_of_pairwise,
        Json.ownOrder_eq_self fun k hk => (h.1.2 k hk).2]
      exact (List.pairwise_map.mp h.1.1).imp le_of_lt

theorem canonicalItems_written : (vs : List Value) → WrittenItems vs → canonicalItems vs = vs
  | [], _ => rfl
  | v :: vs, h => by rw [canonicalItems, canonical_written v h.1, canonicalItems_written vs h.2]

theorem canonicalMembers_written : (ms : List (Text × Value)) → WrittenMembers ms → canonicalMembers ms = ms
  | [], _ => rfl
  | (k, v) :: ms, h => by rw [canonicalMembers, canonical_written v h.1, canonicalMembers_written ms h.2]
end

mutual
theorem isFinite_written : (v : Value) → Written v → isFinite v
  | .null, _ | .bool _, _ | .str _, _ => rfl
  | .num _, h => h.1
  | .arr items, h => isFiniteItems_written items h.2
  | .obj members, h => isFiniteMembers_written members h.2

theorem isFiniteItems_written : (vs : List Value) → WrittenItems vs → isFiniteItems vs
  | [], _ => rfl
  | v :: vs, h => by simp [isFiniteItems, isFinite_written v h.1, isFiniteItems_written vs h.2]

theorem isFiniteMembers_written : (ms : List (Text × Value)) → WrittenMembers ms → isFiniteMembers ms
  | [], _ => rfl
  | (k, v) :: ms, h => by simp [isFiniteMembers, isFinite_written v h.1, isFiniteMembers_written ms h.2]
end

mutual
theorem uniqueKeys_written : (v : Value) → Written v → v.UniqueKeys
  | .null, _ | .bool _, _ | .str _, _ | .num _, _ => trivial
  | .arr items, h => uniqueKeysItems_written items h.2
  | .obj members, h => ⟨h.nodup, uniqueKeysMembers_written members h.2⟩

theorem uniqueKeysItems_written : (vs : List Value) → WrittenItems vs → Json.UniqueKeysItems vs
  | [], _ => trivial
  | v :: vs, h => ⟨uniqueKeys_written v h.1, uniqueKeysItems_written vs h.2⟩

theorem uniqueKeysMembers_written : (ms : List (Text × Value)) → WrittenMembers ms → Json.UniqueKeysMembers ms
  | [], _ => trivial
  | (_, v) :: ms, h => ⟨uniqueKeys_written v h.1, uniqueKeysMembers_written ms h.2⟩
end

section Texts

variable {v : Value}

theorem encodeCanonical_written (h : Written v) : encodeCanonical v = Json.render v := by
  rw [encodeCanonical, sorted_written v h]

theorem encode_written (h : Written v) : encodeVerificationActionData v = .ok (Json.render v) := by
  rw [encodeVerificationActionData, assertOrdinaryData_written v _ h, encodeCanonical_written h]
  rfl

theorem canonicalEncoding_written (h : Written v) : canonicalEncoding v = Json.render v := by
  rw [canonicalEncoding, canonical_written v h]

theorem exact_written (h : Written v) : v.Exact := by
  rw [← canonical_written v h]
  exact exact_canonical v (isFinite_written v h)

theorem parse_written (h : Written v) : Json.parse (Json.render v) = some v := by
  rw [← canonicalEncoding_written h, parse_canonicalEncoding (isFinite_written v h) (uniqueKeys_written v h),
    canonical_written v h]

theorem lineBreak_notMem_written (h : Written v) : (0xA : CodeUnit) ∉ Json.render v :=
  Json.lineBreak_notMem_render v (exact_written h)

end Texts

/-- The scanner reads a written text to its end. -/
theorem scanDocument_written {v : Value} (h : Written v) (label : Text) :
    ∃ c, scanDocument (Json.render v) label none = some (.ok c) ∧ (skipWhitespace c).rest = [] :=
  (scanDocument_of_document label (Json.document_render (exact_written h))).1
    (admitted_zero_iff.mpr ⟨uniqueKeys_written _ h, by simp⟩)

/-- A value is read back from its text when the contract admits its root. -/
theorem parseExactJson_written {v : Value} (h : Written v) (label : Text) {contract : Option ExactJsonContract}
    (hroot : ∀ offset, ∀ c ∈ contract, checkRootKeys label c v offset = .ok ()) :
    parseExactJson (Json.render v) label contract none = some (.ok v) := by
  obtain ⟨c, hc, hskip⟩ := scanDocument_written h label
  unfold parseExactJson
  simp only [Option.map_none, Option.join_none, hc, Option.map_some]
  show some (finishDocument _ label contract c) = _
  cases contract with
  | none => simp [finishDocument, hskip, parse_written h]
  | some contract => simp [finishDocument, hskip, parse_written h, hroot _ contract rfl]

/-- An object of the expected keys is read back from its text. -/
theorem exactDocument_written {members : List (Text × Value)} {keys : List Text} (h : Written (.obj members))
    (hkeys : members.map Prod.fst = sortBy id keys) (hempty : [] ∉ keys) (label : Text) :
    exactDocument (Json.render (.obj members)) label keys = .ok (.obj members) := by
  have hperm : (members.map Prod.fst).Perm keys := hkeys ▸ sortBy_perm keys
  have hroot (offset : Nat) : checkRootKeys label ⟨keys⟩ (.obj members : Value) offset = .ok () := by
    have hcontract : ¬([] ∈ keys ∨ ¬keys.Nodup) := by
      rintro (h' | h')
      · exact hempty h'
      · exact h' (hperm.nodup_iff.mp h.nodup)
    have hextra : (members.find? fun m => m.1 ∉ keys) = none := by
      rw [List.find?_eq_none]
      intro m hm
      simpa using hperm.mem_iff.mp (List.mem_map_of_mem hm)
    have hmissing : (keys.find? fun key => key ∉ members.map Prod.fst) = none := by
      rw [List.find?_eq_none]
      intro key hkey
      simpa using hperm.mem_iff.mpr hkey
    rw [checkRootKeys, if_neg hcontract]
    simp only [hextra, hmissing]
  have hparse : parseExactJson (Json.render (.obj members)) label (some ⟨keys⟩) none = some (.ok (.obj members)) :=
    parseExactJson_written h label fun offset c hc => by
      cases hc
      exact hroot offset
  simp only [exactDocument, hparse, Option.get_some]
  rfl

end SecPlatform.VerificationAction
