import Mathlib.Data.List.Perm.Basic
import SecPlatform.Library.Related
import SecPlatform.VerificationAction.Lemmas.Data

/-!
# Values that hold the same data

The order in which an object holds its members is no data, and neither is the sign of a zero. Ordinary data is
encoded to one text exactly when it is the same data, and its text is read back as the same data.
-/

namespace SecPlatform.VerificationAction

open Contracts

/-! ## The same data -/

mutual
/-- The values differ in the order of the members of objects and in the sign of zeros, if at all. -/
def SameData : Value → Value → Prop
  | .null, .null => True
  | .bool a, .bool b => a = b
  | .num n, .num m => n = m ∨ ∃ a b, n = .zero a ∧ m = .zero b
  | .str s, .str t => s = t
  | .arr xs, .arr ys => SameItems xs ys
  | .obj ms, .obj ns => ∃ ns', ns'.Perm ns ∧ SameMembers ms ns'
  | _, _ => False

def SameItems : List Value → List Value → Prop
  | [], [] => True
  | x :: xs, y :: ys => SameData x y ∧ SameItems xs ys
  | _, _ => False

def SameMembers : List (Text × Value) → List (Text × Value) → Prop
  | [], [] => True
  | (k, v) :: ms, (l, w) :: ns => k = l ∧ SameData v w ∧ SameMembers ms ns
  | _, _ => False
end

theorem positive_eq_iff {n m : JsNumber} :
    ((if n = .zero true then JsNumber.zero false else n) = if m = .zero true then .zero false else m) ↔
      n = m ∨ ∃ a b, n = .zero a ∧ m = .zero b := by
  constructor
  · intro h
    split at h <;> split at h
    · exact .inl (by simp_all)
    · exact .inr ⟨true, false, by assumption, h.symm⟩
    · exact .inr ⟨false, true, h, by assumption⟩
    · exact .inl h
  · rintro (rfl | ⟨a, b, rfl, rfl⟩)
    · rfl
    · cases a <;> cases b <;> decide

theorem sortedMembers_eq_map (ms : List (Text × Value)) : sortedMembers ms = ms.map fun m => (m.1, sorted m.2) := by
  induction ms with
  | nil => rfl
  | cons m ms ih => obtain ⟨k, v⟩ := m; simp [sortedMembers, ih]

theorem keys_sortedMembers (ms : List (Text × Value)) : (sortedMembers ms).map Prod.fst = ms.map Prod.fst := by
  simp [sortedMembers_eq_map, Function.comp_def]

/-- The members of two objects are written in one order exactly when the ones are the others in another order. -/
theorem sortBy_sortedMembers_eq_iff {ms ns : List (Text × Value)} (h : (ms.map Prod.fst).Nodup) :
    sortBy Prod.fst (sortedMembers ms) = sortBy Prod.fst (sortedMembers ns) ↔
      ∃ ns', ns'.Perm ns ∧ sortedMembers ms = sortedMembers ns' := by
  constructor
  · intro heq
    have hperm : (sortedMembers ms).Perm (sortedMembers ns) :=
      (sortBy_perm _).symm.trans ((List.Perm.of_eq heq).trans (sortBy_perm _))
    obtain ⟨ns', hmap, hns⟩ := (congrFun₂ (List.eq_map_comp_perm _) _ _).mpr (sortedMembers_eq_map ns ▸ hperm)
    exact ⟨ns', hns, hmap.trans (sortedMembers_eq_map ns').symm⟩
  · rintro ⟨ns', hns, heq⟩
    have hperm : (sortedMembers ms).Perm (sortedMembers ns) := by
      rw [heq, sortedMembers_eq_map, sortedMembers_eq_map]
      exact hns.map _
    refine sortBy_eq_of_perm hperm fun a ha b hb hkey => ?_
    exact List.inj_on_of_nodup_map (by rwa [keys_sortedMembers]) ha hb hkey

mutual
theorem sorted_eq_iff : (v w : Value) → v.UniqueKeys → (sorted v = sorted w ↔ SameData v w)
  | .null, w, _ => by cases w <;> simp [sorted, SameData]
  | .bool _, w, _ => by cases w <;> simp [sorted, SameData]
  | .str _, w, _ => by cases w <;> simp [sorted, SameData]
  | .num n, w, _ => by
      cases w with
      | num m => simp only [sorted, SameData, Json.num.injEq, positive_eq_iff]
      | _ => simp [sorted, SameData]
  | .arr xs, w, h => by
      cases w with
      | arr ys => simp only [sorted, SameData, Json.arr.injEq, sortedItems_eq_iff xs ys h]
      | _ => simp [sorted, SameData]
  | .obj ms, w, h => by
      cases w with
      | obj ns =>
          simp only [sorted, SameData, Json.obj.injEq, sortBy_sortedMembers_eq_iff h.1]
          exact exists_congr fun ns' => and_congr_right fun _ => sortedMembers_eq_iff ms ns' h.2
      | _ => simp [sorted, SameData]

theorem sortedItems_eq_iff : (xs ys : List Value) → Json.UniqueKeysItems xs → (sortedItems xs = sortedItems ys ↔ SameItems xs ys)
  | [], ys, _ => by cases ys <;> simp [sortedItems, SameItems]
  | x :: xs, ys, h => by
      cases ys with
      | nil => simp [sortedItems, SameItems]
      | cons y ys =>
          simp only [sortedItems, SameItems, List.cons.injEq, sorted_eq_iff x y h.1, sortedItems_eq_iff xs ys h.2]

theorem sortedMembers_eq_iff : (ms ns : List (Text × Value)) → Json.UniqueKeysMembers ms →
    (sortedMembers ms = sortedMembers ns ↔ SameMembers ms ns)
  | [], ns, _ => by cases ns <;> simp [sortedMembers, SameMembers]
  | (k, v) :: ms, ns, h => by
      cases ns with
      | nil => simp [sortedMembers, SameMembers]
      | cons n ns =>
          simp only [sortedMembers, SameMembers, List.cons.injEq, Prod.mk.injEq, sorted_eq_iff v n.2 h.1,
            sortedMembers_eq_iff ms ns h.2, and_assoc]
end

/-! ## Members under their keys -/

theorem sameItems_iff {xs ys : List Value} : SameItems xs ys ↔ List.Forall₂ SameData xs ys := by
  induction xs generalizing ys with
  | nil => cases ys <;> simp [SameItems]
  | cons x xs ih => cases ys <;> simp [SameItems, ih]

theorem sameMembers_iff {ms ns : List (Text × Value)} :
    SameMembers ms ns ↔ List.Forall₂ (fun m n => m.1 = n.1 ∧ SameData m.2 n.2) ms ns := by
  induction ms generalizing ns with
  | nil => cases ns <;> simp [SameMembers]
  | cons m ms ih => obtain ⟨k, v⟩ := m; cases ns <;> simp [SameMembers, ih, and_assoc]

theorem sameData_obj_iff {ms ns : List (Text × Value)} (hnodup : (ms.map Prod.fst).Nodup) :
    SameData (.obj ms) (.obj ns) ↔ (ns.map Prod.fst).Perm (ms.map Prod.fst) ∧
      ∀ key ∈ ms.map Prod.fst, SameData (member ms key) (member ns key) := by
  constructor
  · rintro ⟨ns', hns, hsame⟩
    have hsame := sameMembers_iff.mp hsame
    have hkeys : ms.map Prod.fst = ns'.map Prod.fst :=
      List.forall₂_eq_eq_eq ▸ List.forall₂_map_left_iff.mpr (List.forall₂_map_right_iff.mpr (hsame.imp fun _ _ h => h.1))
    have hperm : (ns.map Prod.fst).Perm (ms.map Prod.fst) := hkeys ▸ (hns.map Prod.fst).symm
    refine ⟨hperm, fun key hkey => ?_⟩
    obtain ⟨m, hm, rfl⟩ := List.mem_map.mp hkey
    obtain ⟨n, hn, hkey, hvalue⟩ := forall₂_exists_right hsame hm
    rw [member_of_mem hnodup hm, hkey, member_of_mem (hperm.nodup_iff.mpr hnodup) (hns.mem_iff.mp hn)]
    exact hvalue
  · rintro ⟨hperm, hsame⟩
    have hns : ns = (ns.map Prod.fst).map fun key => (key, member ns key) := by
      rw [List.map_map]
      refine ((List.map_congr_left fun n hn => ?_).trans (List.map_id _)).symm
      exact Prod.ext rfl (member_of_mem (hperm.nodup_iff.mpr hnodup) hn)
    refine ⟨(ms.map Prod.fst).map fun key => (key, member ns key), ?_, ?_⟩
    · have hperm' := (hperm.map fun key => (key, member ns key)).symm
      rwa [← hns] at hperm'
    · rw [sameMembers_iff, List.map_map, List.forall₂_map_right_iff, List.forall₂_same]
      intro m hm
      have h := hsame m.1 (List.mem_map_of_mem hm)
      rw [member_of_mem hnodup hm] at h
      exact ⟨rfl, h⟩

/-! ## Encoding -/

mutual
theorem isFinite_of_ordinary : (v : Value) → (label : Text) → assertOrdinaryData label v = .ok () → isFinite v
  | .null, _, _ | .bool _, _, _ | .str _, _, _ => rfl
  | .num _, _, h => require_eq_ok.mp h
  | .arr xs, label, h => isFiniteItems_of_ordinary xs label 0 (check_bind_eq_ok.mp h).2
  | .obj ms, label, h => isFiniteMembers_of_ordinary ms label h

theorem isFiniteItems_of_ordinary : (xs : List Value) → (label : Text) → (index : Nat) →
    assertOrdinaryItems label index xs = .ok () → isFiniteItems xs
  | [], _, _, _ => rfl
  | x :: xs, label, index, h => by
      have h := check_bind_eq_ok.mp h
      simp [isFiniteItems, isFinite_of_ordinary x _ h.1, isFiniteItems_of_ordinary xs label (index + 1) h.2]

theorem isFiniteMembers_of_ordinary : (ms : List (Text × Value)) → (label : Text) →
    assertOrdinaryMembers label ms = .ok () → isFiniteMembers ms
  | [], _, _ => rfl
  | (_, v) :: ms, label, h => by
      have h := check_bind_eq_ok.mp (check_bind_eq_ok.mp h).2
      simp [isFiniteMembers, isFinite_of_ordinary v _ h.1, isFiniteMembers_of_ordinary ms label h.2]
end

mutual
theorem exact_sorted : (v : Value) → isFinite v → (sorted v).Exact
  | .null, _ | .bool _, _ | .str _, _ => trivial
  | .num n, h => exact_canonical (.num n) h
  | .arr xs, h => exactItems_sorted xs h
  | .obj ms, h => by
      refine Json.exactMembers_iff.mpr fun m hm => ?_
      exact Json.exactMembers_iff.mp (exactMembers_sorted ms h) m (mem_sortBy.mp hm)

theorem exactItems_sorted : (xs : List Value) → isFiniteItems xs → Json.ExactItems (sortedItems xs)
  | [], _ => trivial
  | x :: xs, h => by
      simp only [isFiniteItems, Bool.and_eq_true] at h
      exact ⟨exact_sorted x h.1, exactItems_sorted xs h.2⟩

theorem exactMembers_sorted : (ms : List (Text × Value)) → isFiniteMembers ms → Json.ExactMembers (sortedMembers ms)
  | [], _ => trivial
  | (_, v) :: ms, h => by
      simp only [isFiniteMembers, Bool.and_eq_true] at h
      exact ⟨exact_sorted v h.1, exactMembers_sorted ms h.2⟩
end

mutual
/-- What `JSON.parse` makes of the written members is the data that was written. -/
theorem sameData_ofTree : (v : Value) → v.UniqueKeys → SameData v (Json.ofTree (sorted v))
  | .null, _ => trivial
  | .bool _, _ | .str _, _ => rfl
  | .num n, _ => by
      rw [sorted, Json.ofTree, SameData]
      split
      · exact .inr ⟨true, false, by assumption, rfl⟩
      · exact .inl rfl
  | .arr xs, h => sameItems_ofTree xs h
  | .obj ms, h => by
      have hsorted : (sortBy Prod.fst (sortedMembers ms)).Perm (sortedMembers ms) := sortBy_perm _
      have hperm := hsorted.map fun m => (m.1, Json.ofTree m.2)
      have hnodup : ((Json.ofTreeMembers (sortBy Prod.fst (sortedMembers ms))).map Prod.fst).Nodup := by
        rw [Json.ofTreeMembers_eq_map, (hperm.map Prod.fst).nodup_iff, List.map_map]
        simpa [Function.comp_def, keys_sortedMembers] using h.1
      refine ⟨Json.ofTreeMembers (sortedMembers ms), ?_, sameMembers_ofTree ms h.2⟩
      rw [Json.foldl_define (by simpa using hnodup), List.nil_append, Json.ofTreeMembers_eq_map,
        Json.ofTreeMembers_eq_map]
      exact ((Json.ownOrder_perm _).trans hperm).symm

theorem sameItems_ofTree : (xs : List Value) → Json.UniqueKeysItems xs → SameItems xs (Json.ofTreeItems (sortedItems xs))
  | [], _ => trivial
  | x :: xs, h => ⟨sameData_ofTree x h.1, sameItems_ofTree xs h.2⟩

theorem sameMembers_ofTree : (ms : List (Text × Value)) → Json.UniqueKeysMembers ms →
    SameMembers ms (Json.ofTreeMembers (sortedMembers ms))
  | [], _ => trivial
  | (_, v) :: ms, h => ⟨rfl, sameData_ofTree v h.1, sameMembers_ofTree ms h.2⟩
end

theorem assertOrdinaryMembers_ok {ms : List (Text × Value)} (label : Text)
    (h : ∀ m ∈ ms, m.1 ≠ "toJSON" ∧ ∀ label, assertOrdinaryData label m.2 = .ok ()) :
    assertOrdinaryMembers label ms = .ok () := by
  induction ms with
  | nil => rfl
  | cons m ms ih =>
      have hm := h m List.mem_cons_self
      exact check_bind_eq_ok.mpr ⟨require_eq_ok.mpr hm.1, check_bind_eq_ok.mpr
        ⟨hm.2 _, ih fun n hn => h n (List.mem_cons_of_mem _ hn)⟩⟩

mutual
/-- The checks of ordinary data depend on the data only. -/
theorem ordinary_of_sameData : (v w : Value) → SameData v w → (label label' : Text) →
    assertOrdinaryData label v = .ok () → assertOrdinaryData label' w = .ok ()
  | .null, w, hsame, _, _, _ => by cases w <;> first | rfl | cases hsame
  | .bool _, w, hsame, _, _, _ => by cases w <;> first | rfl | cases hsame
  | .str _, w, hsame, _, _, _ => by cases w <;> first | rfl | cases hsame
  | .num n, w, hsame, label, label', h => by
      cases w with
      | num m =>
          rcases hsame with rfl | ⟨a, b, rfl, rfl⟩
          · exact require_eq_ok.mpr (require_eq_ok.mp h)
          · exact require_eq_ok.mpr rfl
      | _ => cases hsame
  | .arr xs, w, hsame, label, label', h => by
      cases w with
      | arr ys =>
          have h := check_bind_eq_ok.mp h
          obtain ⟨hlength, hitems⟩ := ordinaryItems_of_sameItems xs ys hsame label label' 0 0 h.2
          exact check_bind_eq_ok.mpr ⟨require_eq_ok.mpr (hlength ▸ require_eq_ok.mp h.1), hitems⟩
      | _ => cases hsame
  | .obj ms, w, hsame, label, label', h => by
      cases w with
      | obj ns =>
          obtain ⟨ns', hns, hsame⟩ := hsame
          exact assertOrdinaryMembers_ok label' fun n hn =>
            ordinaryMembers_of_sameMembers ms ns' hsame label h n (hns.mem_iff.mpr hn)
      | _ => cases hsame

theorem ordinaryItems_of_sameItems : (xs ys : List Value) → SameItems xs ys → (label label' : Text) → (index index' : Nat) →
    assertOrdinaryItems label index xs = .ok () → xs.length = ys.length ∧ assertOrdinaryItems label' index' ys = .ok ()
  | [], ys, hsame, _, _, _, _, _ => by
      cases ys with
      | nil => exact ⟨rfl, rfl⟩
      | cons _ _ => cases hsame
  | x :: xs, ys, hsame, label, label', index, index', h => by
      cases ys with
      | nil => cases hsame
      | cons y ys =>
          have h := check_bind_eq_ok.mp h
          obtain ⟨hlength, hrest⟩ :=
            ordinaryItems_of_sameItems xs ys hsame.2 label label' (index + 1) (index' + 1) h.2
          exact ⟨congrArg (· + 1) hlength,
            check_bind_eq_ok.mpr ⟨ordinary_of_sameData x y hsame.1 _ _ h.1, hrest⟩⟩

theorem ordinaryMembers_of_sameMembers : (ms ns : List (Text × Value)) → SameMembers ms ns → (label : Text) →
    assertOrdinaryMembers label ms = .ok () → ∀ n ∈ ns, n.1 ≠ "toJSON" ∧ ∀ label, assertOrdinaryData label n.2 = .ok ()
  | [], ns, hsame, _, _ => by
      cases ns with
      | nil => exact List.forall_mem_nil _
      | cons _ _ => cases hsame
  | (k, v) :: ms, ns, hsame, label, h => by
      cases ns with
      | nil => cases hsame
      | cons n ns =>
          obtain ⟨rfl, hvalue, hrest⟩ := hsame
          obtain ⟨hkey, h⟩ := check_bind_eq_ok.mp h
          have h := check_bind_eq_ok.mp h
          refine List.forall_mem_cons.mpr ⟨⟨require_eq_ok.mp hkey, fun label' => ?_⟩,
            ordinaryMembers_of_sameMembers ms ns hrest label h.2⟩
          exact ordinary_of_sameData v n.2 hvalue _ label' h.1
end

section Texts

variable {v w : Value}

/-- One text, one data. -/
theorem encodeCanonical_eq_iff (hunique : v.UniqueKeys) (hv : isFinite v) (hw : isFinite w) :
    encodeCanonical v = encodeCanonical w ↔ SameData v w := by
  rw [← sorted_eq_iff v w hunique]
  exact ⟨Json.render_injective (exact_sorted v hv) (exact_sorted w hw), congrArg Json.render⟩

theorem parse_encodeCanonical (hunique : v.UniqueKeys) (hv : isFinite v) :
    ∃ p, Json.parse (encodeCanonical v) = some p ∧ SameData v p := by
  refine ⟨Json.ofTree (sorted v), ?_, sameData_ofTree v hunique⟩
  rw [Json.parse, encodeCanonical, Json.document_render (exact_sorted v hv), Option.map_some]

theorem encodeVerificationActionData_eq_ok {t : Text} :
    encodeVerificationActionData v = .ok t ↔
      assertOrdinaryData "canonical serialization" v = .ok () ∧ encodeCanonical v = t := by
  rw [encodeVerificationActionData, check_bind_eq_ok, pure_eq_ok, Except.ok.injEq]

end Texts

end SecPlatform.VerificationAction
