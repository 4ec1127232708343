import SecPlatform.VerificationAction.JournalTheorems
import SecPlatform.VerificationAction.Lemmas.SameData

/-!
# The identity of an Action is canonical

Ordinary data has one text, whatever the order of its members, and the text is read back as the data. An ActionKey
depends on what the input holds and on nothing else: not on the order of members, and not on the order of the lists
that stand for sets.
-/

namespace SecPlatform.VerificationAction

open Contracts

/-! ## Inputs that hold the same -/

/-- Arrays of the same items in any order. -/
def SameSet (v w : Value) : Prop := ∃ xs ys zs, v = .arr xs ∧ w = .arr ys ∧ zs.Perm ys ∧ SameItems xs zs

/-- Objects of the same keys whose members are related under each of them. -/
def RecordsRelated (related : Text → Value → Value → Prop) (v w : Value) : Prop :=
  ∃ ms ns, v = .obj ms ∧ w = .obj ns ∧ (ns.map Prod.fst).Perm (ms.map Prod.fst) ∧
    ∀ key ∈ ms.map Prod.fst, related key (member ms key) (member ns key)

def SameOperation : Value → Value → Prop :=
  RecordsRelated fun key => if key = "declaredEnvironment" then SameSet else SameData

/-- The lists of an input that stand for sets. -/
def setKeys : List Text := ["inputClosure", "requiredCheapPreflightActionKeys", "upstreamActionKeys"]

/-- The inputs differ in the order of members and in the order of the lists that stand for sets, if at all. -/
def SameInput : Value → Value → Prop :=
  RecordsRelated fun key => if key = "operation" then SameOperation else if key ∈ setKeys then SameSet else SameData

/-! ## Values of one record -/

section Matching

variable {v w : Value}

theorem recordsRelated_sameData {ms : List (Text × Value)} (hnodup : (ms.map Prod.fst).Nodup) :
    RecordsRelated (fun _ => SameData) (.obj ms) w ↔ SameData (.obj ms) w := by
  constructor
  · rintro ⟨ms', ns, hms, rfl, hkeys⟩
    obtain rfl := Json.obj.inj hms
    exact (sameData_obj_iff hnodup).mpr hkeys
  · intro h
    cases w with
    | obj ns => exact ⟨ms, ns, rfl, rfl, (sameData_obj_iff hnodup).mp h⟩
    | _ => cases h

/-- If a value of each field of a record determines its other values, then so does a value of the record. -/
theorem IsRecord.related_iff {fields : List (Text × (Value → Prop))} {related : Text → Value → Value → Prop}
    (hmatch : ∀ f ∈ fields, ∀ v w, f.2 v → (f.2 w ↔ related f.1 v w)) (h : IsRecord fields v) :
    IsRecord fields w ↔ RecordsRelated related v w := by
  obtain ⟨ms, rfl, hkeys, hfields⟩ := h
  constructor
  · rintro ⟨ns, rfl, hkeys', hfields'⟩
    refine ⟨ms, ns, rfl, rfl, hkeys'.trans hkeys.symm, fun key hkey => ?_⟩
    obtain ⟨f, hf, rfl⟩ := List.mem_map.mp (hkeys.mem_iff.mp hkey)
    exact (hmatch f hf _ _ (hfields f hf)).mp (hfields' f hf)
  · rintro ⟨ms', ns, hms, rfl, hperm, hrelated⟩
    obtain rfl := Json.obj.inj hms
    refine ⟨ns, rfl, hperm.trans hkeys, fun f hf => ?_⟩
    exact (hmatch f hf _ _ (hfields f hf)).mpr (hrelated f.1 (hkeys.mem_iff.mpr (List.mem_map_of_mem hf)))

theorem IsRecord.same_iff {fields : List (Text × (Value → Prop))} (hnodup : (fields.map Prod.fst).Nodup)
    (hmatch : ∀ f ∈ fields, ∀ v w, f.2 v → (f.2 w ↔ SameData v w)) (h : IsRecord fields v) :
    IsRecord fields w ↔ SameData v w := by
  have hrelated : IsRecord fields w ↔ RecordsRelated (fun _ => SameData) v w := IsRecord.related_iff hmatch h
  rw [hrelated]
  obtain ⟨ms, rfl, hkeys, -⟩ := h
  exact recordsRelated_sameData (hkeys.nodup_iff.mpr hnodup)

theorem IsSet.same_iff {α : Type} {isValue : α → Value → Prop} {items : List α}
    (hmatch : ∀ a v w, isValue a v → (isValue a w ↔ SameData v w)) (h : IsSet isValue items v) :
    IsSet isValue items w ↔ SameSet v w := by
  obtain ⟨xs, rfl, as, has, hxs⟩ := h
  constructor
  · rintro ⟨ys, rfl, bs, hbs, hys⟩
    obtain ⟨zs, hzs, hperm⟩ : ∃ zs, List.Forall₂ isValue as zs ∧ zs.Perm ys :=
      List.perm_comp_forall₂ (has.trans hbs.symm) hys
    refine ⟨xs, ys, zs, rfl, rfl, hperm, sameItems_iff.mpr ?_⟩
    exact (forall₂_trans hxs.flip hzs).imp fun x z ⟨a, hx, hz⟩ => (hmatch a x z hx).mp hz
  · rintro ⟨xs', ys, zs, hxs', rfl, hperm, hsame⟩
    obtain rfl := Json.arr.inj hxs'
    have hzs : List.Forall₂ isValue as zs :=
      (forall₂_trans hxs (sameItems_iff.mp hsame)).imp fun a z ⟨x, hx, hz⟩ => (hmatch a x z hx).mpr hz
    obtain ⟨bs, hbs, hys⟩ : ∃ bs, bs.Perm as ∧ List.Forall₂ isValue bs ys := by
      obtain ⟨bs, hys, hbs⟩ := List.perm_comp_forall₂ hperm.symm hzs.flip
      exact ⟨bs, hbs, hys.flip⟩
    exact ⟨ys, rfl, bs, hbs.trans has, hys⟩

theorem IsText.same_iff {t : Text} (h : IsText t v) : IsText t w ↔ SameData v w := by
  obtain rfl := h
  cases w <;> simp [IsText, SameData, eq_comm]

theorem VerificationActionProducer.IsValue.same_iff {producer : VerificationActionProducer} (h : producer.IsValue v) :
    producer.IsValue w ↔ SameData v w := by
  refine IsRecord.same_iff (by dsimp only [List.map]; decide) ?_ h
  simp only [List.forall_mem_cons]
  exact ⟨fun _ _ => IsText.same_iff, fun _ _ => IsText.same_iff, List.forall_mem_nil _⟩

theorem VerificationActionEnvironmentBinding.IsValue.same_iff {binding : VerificationActionEnvironmentBinding}
    (h : binding.IsValue v) : binding.IsValue w ↔ SameData v w := by
  refine IsRecord.same_iff (by dsimp only [List.map]; decide) ?_ h
  simp only [List.forall_mem_cons]
  exact ⟨fun _ _ => IsText.same_iff, fun _ _ => IsText.same_iff, List.forall_mem_nil _⟩

theorem VerificationActionInputRef.IsValue.same_iff {ref : VerificationActionInputRef} (h : ref.IsValue v) :
    ref.IsValue w ↔ SameData v w := by
  refine IsRecord.same_iff (by dsimp only [List.map]; decide) ?_ h
  simp only [List.forall_mem_cons]
  exact ⟨fun _ _ => IsText.same_iff, fun _ _ => IsText.same_iff, List.forall_mem_nil _⟩

theorem VerificationActionEnvironment.IsValue.same_iff {environment : VerificationActionEnvironment}
    (h : environment.IsValue v) : environment.IsValue w ↔ SameData v w := by
  refine IsRecord.same_iff (by dsimp only [List.map]; decide) ?_ h
  simp only [List.forall_mem_cons]
  exact ⟨fun _ _ => IsText.same_iff, fun _ _ => IsText.same_iff, fun _ _ => IsText.same_iff, List.forall_mem_nil _⟩

theorem VerificationActionOperation.IsValue.same_iff {operation : VerificationActionOperation} (h : operation.IsValue v) :
    operation.IsValue w ↔ SameOperation v w := by
  refine IsRecord.related_iff ?_ h
  simp only [List.forall_mem_cons]
  refine ⟨fun _ _ => ?_, fun _ _ => ?_, fun _ _ => ?_, fun _ _ => ?_, fun _ _ => ?_, List.forall_mem_nil _⟩
  case refine_5 =>
    rw [if_pos (by decide)]
    exact IsSet.same_iff fun _ _ _ h => h.same_iff
  all_goals
    rw [if_neg (by decide)]
    exact IsText.same_iff

/-- The values of one input are the ones that hold the same. -/
theorem VerificationActionKeyInput.IsValue.same_iff {input : VerificationActionKeyInput} (h : input.IsValue v) :
    input.IsValue w ↔ SameInput v w := by
  have hkeys {keys : ActionKeyList} {v w : Value} (h : IsActionKeys keys v) : IsActionKeys keys w ↔ SameSet v w :=
    IsSet.same_iff (fun _ _ _ h => IsText.same_iff h) h
  refine IsRecord.related_iff ?_ h
  simp only [List.forall_mem_cons]
  refine ⟨fun _ _ => ?_, fun _ _ => ?_, fun _ _ => ?_, fun _ _ => ?_, fun _ _ => ?_, fun _ _ => ?_, fun _ _ => ?_,
    fun _ _ => ?_, List.forall_mem_nil _⟩
  · rw [if_neg (by decide), if_neg (by decide)]
    exact IsText.same_iff
  · rw [if_neg (by decide), if_neg (by decide)]
    exact fun h => h.same_iff
  · rw [if_pos (by decide)]
    exact fun h => h.same_iff
  · rw [if_neg (by decide), if_pos (by decide)]
    exact IsSet.same_iff fun _ _ _ h => h.same_iff
  · rw [if_neg (by decide), if_neg (by decide)]
    exact fun h => h.same_iff
  · rw [if_neg (by decide), if_pos (by decide)]
    exact hkeys
  · rw [if_neg (by decide), if_pos (by decide)]
    exact hkeys
  · rw [if_neg (by decide), if_neg (by decide)]
    exact IsText.same_iff

end Matching

/-! ## Texts and keys -/

theorem written_schemaValue (input : VerificationActionKeyInput) : Written input.schemaValue :=
  written_obj (by dsimp only [List.map]; decide)
    (by simp [written_environment, written_refs, written_operation, written_producer, written_actionKeys])

theorem schemaValue_injective {input input' : VerificationActionKeyInput} (h : input.schemaValue = input'.schemaValue) :
    input = input' := by
  have hvalue : input.toValue = input'.toValue := by
    simp only [VerificationActionKeyInput.schemaValue, Json.obj.injEq, List.cons.injEq, Prod.mk.injEq, true_and,
      and_true] at h
    simp only [VerificationActionKeyInput.toValue, VerificationActionKeyInput.members, h]
  have hread := canonicalInput_perm input (.refl _)
  have hread' := canonicalInput_perm input' (.refl _)
  exact Except.ok.inj (hread.symm.trans ((congrArg canonicalInput hvalue).trans hread'))

/-- The text whose digest is the ActionKey tells inputs apart. -/
theorem keyText_injective {input input' : VerificationActionKeyInput}
    (h : encodeCanonical input.schemaValue = encodeCanonical input'.schemaValue) : input = input' := by
  have hwritten := written_schemaValue input
  have hwritten' := written_schemaValue input'
  rw [encodeCanonical_written hwritten, encodeCanonical_written hwritten'] at h
  exact schemaValue_injective (Json.render_injective (exact_written hwritten) (exact_written hwritten') h)

section Keys

variable [Sha256]

theorem createVerificationActionKey_eq_ok {v : Value} {k : VerificationActionKey} :
    createVerificationActionKey v = .ok k ↔ k.IsValue v := by
  rw [← canonicalInput_eq_ok, createVerificationActionKey, bind_eq_ok]
  constructor
  · rintro ⟨input, hinput, h⟩
    obtain rfl := Except.ok.inj h
    exact hinput
  · intro h
    obtain ⟨input, actionKey, rfl⟩ := k
    exact ⟨input, h, rfl⟩

/-- Data that holds no key twice, as every object of the language does. -/
abbrev JsonData : Type := { v : Value // v.UniqueKeys }

end Keys

section SomeKey

attribute [local instance] someSha256

end SomeKey

end SecPlatform.VerificationAction
