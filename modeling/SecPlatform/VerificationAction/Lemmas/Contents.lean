import Mathlib.Data.List.Perm.Basic
import SecPlatform.Library.Related
import SecPlatform.VerificationAction.Action
import SecPlatform.VerificationAction.Lemmas.Data

/-!
# What an input holds

The checks of an input accept exactly the values that hold the members of a record, under their keys in any order,
its sets as lists in any order. Two values of one record differ in nothing else.
-/

namespace SecPlatform.VerificationAction

open Contracts

/-! ## Records and sets as values -/

/-- An object of exactly these members, each of them a value as described. -/
def IsRecord (fields : List (Text × (Value → Prop))) (v : Value) : Prop :=
  ∃ ms, v = .obj ms ∧ (ms.map Prod.fst).Perm (fields.map Prod.fst) ∧ ∀ f ∈ fields, f.2 (member ms f.1)

/-- An array of the values of these items, in any order. -/
def IsSet {α : Type} (isValue : α → Value → Prop) (items : List α) (v : Value) : Prop :=
  ∃ vs, v = .arr vs ∧ ∃ items', items'.Perm items ∧ List.Forall₂ isValue items' vs

def IsText (t : Text) (v : Value) : Prop := v = .str t

def VerificationActionProducer.IsValue (producer : VerificationActionProducer) : Value → Prop := IsRecord [
  ("identity", IsText producer.identity.val),
  ("revision", IsText producer.revision.val)]

def VerificationActionEnvironmentBinding.IsValue (binding : VerificationActionEnvironmentBinding) : Value → Prop := IsRecord [
  ("name", IsText binding.name.val),
  ("digest", IsText binding.digest.val)]

def VerificationActionOperation.IsValue (operation : VerificationActionOperation) : Value → Prop := IsRecord [
  ("identity", IsText operation.identity.val),
  ("revision", IsText operation.revision.val),
  ("semanticDigest", IsText operation.semanticDigest.val),
  ("workingDirectory", IsText operation.workingDirectory.val),
  ("declaredEnvironment", IsSet VerificationActionEnvironmentBinding.IsValue operation.declaredEnvironment.val)]

def VerificationActionInputRef.IsValue (ref : VerificationActionInputRef) : Value → Prop := IsRecord [
  ("path", IsText ref.path.val),
  ("digest", IsText ref.digest.val)]

def VerificationActionEnvironment.IsValue (environment : VerificationActionEnvironment) : Value → Prop := IsRecord [
  ("toolchainRevision", IsText environment.toolchainRevision.val),
  ("providerRevision", IsText environment.providerRevision.val),
  ("contractRevision", IsText environment.contractRevision.val)]

def IsActionKeys (keys : ActionKeyList) : Value → Prop :=
  IsSet (fun key : VerificationActionKeyDigest => IsText key.val) keys.val

def VerificationActionKeyInput.IsValue (input : VerificationActionKeyInput) : Value → Prop := IsRecord [
  ("actionKind", IsText input.actionKind.val),
  ("producer", input.producer.IsValue),
  ("operation", input.operation.IsValue),
  ("inputClosure", IsSet VerificationActionInputRef.IsValue input.inputClosure.val),
  ("environment", input.environment.IsValue),
  ("requiredCheapPreflightActionKeys", IsActionKeys input.requiredCheapPreflightActionKeys),
  ("upstreamActionKeys", IsActionKeys input.upstreamActionKeys),
  ("resultSchemaRevision", IsText input.resultSchemaRevision.val)]

/-! ## Values that pass the checks of plain data -/

/-- The value is ordinary data and has no key that is forbidden in an identity. -/
def Passes (v : Value) : Prop := ∀ label, assertOrdinaryData label v = .ok () ∧ assertNoIdentityKey label v = .ok ()

theorem Passes.text {t : Text} {v : Value} (h : IsText t v) : Passes v := by
  rw [h]
  exact fun _ => ⟨rfl, rfl⟩

theorem Passes.obj {ms : List (Text × Value)} (hkeys : ∀ k ∈ ms.map Prod.fst, k ≠ "toJSON" ∧ k ∉ forbiddenIdentityKeys)
    (h : ∀ m ∈ ms, Passes m.2) : Passes (.obj ms) := by
  intro label
  rw [assertOrdinaryData, assertNoIdentityKey]
  induction ms with
  | nil => exact ⟨rfl, rfl⟩
  | cons m ms ih =>
      obtain ⟨k, v⟩ := m
      have hk := hkeys k (by simp)
      have hrest := ih (fun k hk => hkeys k (List.mem_cons_of_mem _ hk)) fun m hm => h m (List.mem_cons_of_mem _ hm)
      have hv (label : Text) := h (k, v) List.mem_cons_self label
      exact ⟨check_bind_eq_ok.mpr ⟨require_eq_ok.mpr hk.1, check_bind_eq_ok.mpr ⟨(hv _).1, hrest.1⟩⟩,
        check_bind_eq_ok.mpr ⟨require_eq_ok.mpr hk.2, check_bind_eq_ok.mpr ⟨(hv _).2, hrest.2⟩⟩⟩

theorem Passes.arr {vs : List Value} (hlength : vs.length ≤ maximumArrayLength) (h : ∀ v ∈ vs, Passes v) :
    Passes (.arr vs) := by
  have hitems (label : Text) (index : Nat) :
      assertOrdinaryItems label index vs = .ok () ∧ assertNoIdentityKeyItems label index vs = .ok () := by
    clear hlength
    induction vs generalizing index with
    | nil => exact ⟨rfl, rfl⟩
    | cons v vs ih =>
        have hrest := ih (fun w hw => h w (List.mem_cons_of_mem _ hw)) (index + 1)
        have hv (label : Text) := h v List.mem_cons_self label
        exact ⟨check_bind_eq_ok.mpr ⟨(hv _).1, hrest.1⟩, check_bind_eq_ok.mpr ⟨(hv _).2, hrest.2⟩⟩
  exact fun label => ⟨check_bind_eq_ok.mpr ⟨require_eq_ok.mpr hlength, (hitems label 0).1⟩, (hitems label 0).2⟩

theorem Passes.set {α : Type} {isValue : α → Value → Prop} {items : List α} {v : Value} (h : IsSet isValue items v)
    (hlength : items.length ≤ maximumArrayLength) (hitem : ∀ a ∈ items, ∀ v, isValue a v → Passes v) : Passes v := by
  obtain ⟨vs, rfl, items', hperm, hvs⟩ := h
  refine Passes.arr (hvs.length_eq ▸ hperm.length_eq ▸ hlength) fun v hv => ?_
  obtain ⟨a, ha, hav⟩ := forall₂_exists_left hvs hv
  exact hitem a (hperm.mem_iff.mp ha) v hav

theorem Passes.record {fields : List (Text × (Value → Prop))} {v : Value} (h : IsRecord fields v)
    (hnodup : (fields.map Prod.fst).Nodup)
    (hkeys : ∀ k ∈ fields.map Prod.fst, k ≠ "toJSON" ∧ k ∉ forbiddenIdentityKeys)
    (hfield : ∀ f ∈ fields, ∀ v, f.2 v → Passes v) : Passes v := by
  obtain ⟨ms, rfl, hperm, hmembers⟩ := h
  refine Passes.obj (fun k hk => hkeys k (hperm.mem_iff.mp hk)) fun m hm => ?_
  obtain ⟨f, hf, hkey⟩ := List.mem_map.mp (hperm.mem_iff.mp (List.mem_map_of_mem hm))
  have hv := hmembers f hf
  rw [hkey, member_of_mem (hperm.nodup_iff.mpr hnodup) hm] at hv
  exact hfield f hf m.2 hv

/-! ## Single values -/

theorem checkedText_eq_ok {p : Text → Bool} {v : Value} {failure : ActionFailure} {t : { t : Text // p t }} :
    checkedText v failure = .ok t ↔ IsText t.val v := by
  constructor
  · intro h
    unfold checkedText at h
    split at h
    · split at h
      · cases h
        rfl
      · cases h
    · cases h
  · rintro rfl
    exact dif_pos t.2

theorem text_eq_ok {v : Value} {label : Text} {t : BoundedText} : text v label = .ok t ↔ IsText t.val v := checkedText_eq_ok

theorem digest_eq_ok {v : Value} {label : Text} {d : Digest} : digest v label = .ok d ↔ IsText d.val v := checkedText_eq_ok

/-! ## Sets -/

section Sets

variable {α : Type}

theorem ordinaryArray_eq_ok {v : Value} {label : Text} {items : BoundedList Value} :
    ordinaryArray v label = .ok items ↔ assertOrdinaryData label v = .ok () ∧ v = .arr items.val := by
  unfold ordinaryArray
  rw [check_bind_eq_ok]
  refine and_congr_right fun _ => ?_
  cases v with
  | arr vs =>
      constructor
      · intro h
        dsimp only at h
        split at h
        · cases h
          rfl
        · cases h
      · intro h
        obtain rfl := Json.arr.inj h
        exact dif_pos items.2
  | _ => exact ⟨nofun, nofun⟩

theorem mapIndexed_eq_ok {β : Type} {f : Nat → α → Except ActionFailure β} {items : BoundedList α} {mapped : BoundedList β} :
    BoundedList.mapIndexed f items = .ok mapped ↔
      List.Forall₂ (fun (a : α × Nat) b => f a.2 a.1 = .ok b) items.val.zipIdx mapped.val := by
  rw [← mapM_eq_ok]
  unfold BoundedList.mapIndexed
  split
  · rename_i ys h
    exact ⟨fun hy => h.trans (congrArg (fun b : BoundedList β => Except.ok b.val) (Except.ok.inj hy)),
      fun hy => congrArg Except.ok (Subtype.ext (Except.ok.inj (h.symm.trans hy)))⟩
  · rename_i h
    exact ⟨nofun, fun hy => nomatch h.symm.trans hy⟩

theorem mapIndexed_eq_ok_iff {isValue : α → Value → Prop} {f : Nat → Value → Except ActionFailure α}
    (hf : ∀ index v a, f index v = .ok a ↔ isValue a v) {items : BoundedList Value} {mapped : BoundedList α} :
    BoundedList.mapIndexed f items = .ok mapped ↔ List.Forall₂ isValue mapped.val items.val := by
  rw [mapIndexed_eq_ok]
  simp only [hf]
  rw [← List.forall₂_map_left_iff (f := Prod.fst) (R := fun v a => isValue a v), List.zipIdx_map_fst]
  exact ⟨List.Forall₂.flip, List.Forall₂.flip⟩

theorem adjacentDuplicate_of_pairwise {key : α → Text} {items : List α}
    (h : items.Pairwise fun a b => key a < key b) : adjacentDuplicate key items = none := by
  induction items with
  | nil => rfl
  | cons a rest ih =>
      cases rest with
      | nil => rfl
      | cons b rest =>
          rw [adjacentDuplicate, if_neg (ne_of_lt ((List.pairwise_cons.mp h).1 b List.mem_cons_self))]
          exact ih (List.pairwise_cons.mp h).2

theorem sortedUnique_eq_ok {key : α → Text} {duplicate : α → ActionFailure} {items : BoundedList α} {sorted : AscendingList key} :
    sortedUnique key duplicate items = .ok sorted ↔ items.val.Perm sorted.val := by
  have hsorted (h : items.val.Perm sorted.val) : sortBy key items.val = sorted.val := by
    have hnodup : (sorted.val.map key).Nodup := (List.pairwise_map.mpr sorted.2.2).imp ne_of_lt
    rw [sortBy_eq_of_perm h.symm.symm fun a ha b hb =>
      List.inj_on_of_nodup_map hnodup (h.mem_iff.mp ha) (h.mem_iff.mp hb)]
    exact sortBy_of_pairwise (sorted.2.2.imp le_of_lt)
  unfold sortedUnique
  split
  · rename_i h
    refine ⟨nofun, fun hperm => ?_⟩
    rw [hsorted hperm, adjacentDuplicate_of_pairwise sorted.2.2] at h
    cases h
  · rw [Except.ok.injEq, Subtype.ext_iff]
    exact ⟨fun h => (sortBy_perm _).symm.trans (List.Perm.of_eq h), hsorted⟩

/-- The items of a set that is plain data. -/
theorem IsSet.ordinaryArray {isValue : α → Value → Prop} {items : List α} {v : Value} (h : IsSet isValue items v)
    (hpasses : Passes v) (label : Text) :
    ∃ vs, ordinaryArray v label = .ok vs ∧ IsSet isValue items (.arr vs.val) := by
  obtain ⟨vs, rfl, hvs⟩ := h
  have hlength : vs.length ≤ maximumArrayLength := require_eq_ok.mp (check_bind_eq_ok.mp (hpasses label).1).1
  exact ⟨⟨vs, hlength⟩, ordinaryArray_eq_ok.mpr ⟨(hpasses label).1, rfl⟩, vs, rfl, hvs⟩

/-- A list of values is read, sorted and found without a repeated key exactly when the values are those of the set. -/
theorem readSet_eq_ok {key : α → Text} {isValue : α → Value → Prop} {f : Nat → Value → Except ActionFailure α}
    {duplicate : α → ActionFailure} (hf : ∀ index v a, f index v = .ok a ↔ isValue a v) {items : BoundedList Value}
    {sorted : AscendingList key} :
    (items.mapIndexed f >>= sortedUnique key duplicate) = .ok sorted ↔ IsSet isValue sorted.val (.arr items.val) := by
  rw [bind_eq_ok]
  constructor
  · rintro ⟨mapped, hmapped, hsorted⟩
    exact ⟨_, rfl, _, sortedUnique_eq_ok.mp hsorted, (mapIndexed_eq_ok_iff hf).mp hmapped⟩
  · rintro ⟨vs, heq, items', hperm, hvs⟩
    obtain rfl := Json.arr.inj heq
    have hlength : items'.length ≤ maximumArrayLength := hperm.length_eq ▸ sorted.2.1
    exact ⟨⟨items', hlength⟩, (mapIndexed_eq_ok_iff hf).mpr hvs, sortedUnique_eq_ok.mpr hperm⟩

end Sets

/-! ## Records -/

section Records

variable {fields : List (Text × (Value → Prop))} {v : Value} {label : Text}

theorem ordinaryRecord_eq_ok {ms : List (Text × Value)} :
    ordinaryRecord v label = .ok ms ↔ assertOrdinaryData label v = .ok () ∧ v = .obj ms := by
  unfold ordinaryRecord
  rw [check_bind_eq_ok]
  refine and_congr_right fun _ => ?_
  cases v with
  | obj members =>
      constructor
      · intro h
        cases h
        rfl
      · intro h
        obtain rfl := Json.obj.inj h
        rfl
  | _ => exact ⟨nofun, nofun⟩

theorem exactKeys_eq_ok {ms : List (Text × Value)} {keys : List Text} :
    exactKeys ms keys label = .ok () ↔ (ms.map Prod.fst).Perm keys := by
  rw [exactKeys, require_eq_ok]
  exact ⟨fun h => (sortBy_perm _).symm.trans ((List.Perm.of_eq h).trans (sortBy_perm _)), sortBy_id_eq_of_perm⟩

/-- The members of a record that is plain data. -/
theorem IsRecord.ordinaryRecord (h : IsRecord fields v) (hpasses : Passes v) (label label' : Text) :
    ∃ ms, ordinaryRecord v label = .ok ms ∧ exactKeys ms (fields.map Prod.fst) label' = .ok () ∧
      ∀ f ∈ fields, f.2 (member ms f.1) := by
  obtain ⟨ms, rfl, hkeys, hfields⟩ := h
  exact ⟨ms, ordinaryRecord_eq_ok.mpr ⟨(hpasses label).1, rfl⟩, exactKeys_eq_ok.mpr hkeys, hfields⟩

/-- A record is read exactly from the values that are the record. -/
theorem readRecord_eq_ok {α : Type} {a : α} {read : List (Text × Value) → Except ActionFailure α}
    (hpasses : IsRecord fields v → Passes v) (hread : ∀ ms, read ms = .ok a ↔ ∀ f ∈ fields, f.2 (member ms f.1)) :
    (do
      let ms ← ordinaryRecord v label
      exactKeys ms (fields.map Prod.fst) label
      read ms) = .ok a ↔ IsRecord fields v := by
  rw [bind_eq_ok]
  simp only [check_bind_eq_ok, ordinaryRecord_eq_ok, exactKeys_eq_ok, hread]
  constructor
  · rintro ⟨ms, ⟨-, rfl⟩, hkeys, hfields⟩
    exact ⟨ms, rfl, hkeys, hfields⟩
  · intro h
    obtain ⟨ms, hms, hkeys, hfields⟩ := h.ordinaryRecord (hpasses h) label label
    exact ⟨ms, ordinaryRecord_eq_ok.mp hms, exactKeys_eq_ok.mp hkeys, hfields⟩

end Records

/-! ## The records of an input -/

section Inputs

variable {v : Value}

theorem VerificationActionProducer.IsValue.passes {producer : VerificationActionProducer} (h : producer.IsValue v) :
    Passes v := by
  refine Passes.record h (by dsimp only [List.map]; decide) (by dsimp only [List.map]; decide) ?_
  simp only [List.forall_mem_cons]
  exact ⟨fun _ => Passes.text, fun _ => Passes.text, List.forall_mem_nil _⟩

theorem VerificationActionEnvironmentBinding.IsValue.passes {binding : VerificationActionEnvironmentBinding}
    (h : binding.IsValue v) : Passes v := by
  refine Passes.record h (by dsimp only [List.map]; decide) (by dsimp only [List.map]; decide) ?_
  simp only [List.forall_mem_cons]
  exact ⟨fun _ => Passes.text, fun _ => Passes.text, List.forall_mem_nil _⟩

theorem VerificationActionInputRef.IsValue.passes {ref : VerificationActionInputRef} (h : ref.IsValue v) : Passes v := by
  refine Passes.record h (by dsimp only [List.map]; decide) (by dsimp only [List.map]; decide) ?_
  simp only [List.forall_mem_cons]
  exact ⟨fun _ => Passes.text, fun _ => Passes.text, List.forall_mem_nil _⟩

theorem VerificationActionEnvironment.IsValue.passes {environment : VerificationActionEnvironment}
    (h : environment.IsValue v) : Passes v := by
  refine Passes.record h (by dsimp only [List.map]; decide) (by dsimp only [List.map]; decide) ?_
  simp only [List.forall_mem_cons]
  exact ⟨fun _ => Passes.text, fun _ => Passes.text, fun _ => Passes.text, List.forall_mem_nil _⟩

theorem passes_bindings {bindings : AscendingList VerificationActionEnvironmentBinding.key}
    (h : IsSet VerificationActionEnvironmentBinding.IsValue bindings.val v) : Passes v :=
  Passes.set h bindings.2.1 fun _ _ _ hb => hb.passes

theorem passes_refs {refs : AscendingList VerificationActionInputRef.key}
    (h : IsSet VerificationActionInputRef.IsValue refs.val v) : Passes v :=
  Passes.set h refs.2.1 fun _ _ _ hr => hr.passes

theorem passes_actionKeys {keys : ActionKeyList} (h : IsActionKeys keys v) : Passes v :=
  Passes.set h keys.2.1 fun _ _ _ => Passes.text

theorem VerificationActionOperation.IsValue.passes {operation : VerificationActionOperation} (h : operation.IsValue v) :
    Passes v := by
  refine Passes.record h (by dsimp only [List.map]; decide) (by dsimp only [List.map]; decide) ?_
  simp only [List.forall_mem_cons]
  exact ⟨fun _ => Passes.text, fun _ => Passes.text, fun _ => Passes.text, fun _ => Passes.text,
    fun _ => passes_bindings, List.forall_mem_nil _⟩

theorem VerificationActionKeyInput.IsValue.passes {input : VerificationActionKeyInput} (h : input.IsValue v) :
    Passes v := by
  refine Passes.record h (by dsimp only [List.map]; decide) (by dsimp only [List.map]; decide) ?_
  simp only [List.forall_mem_cons]
  exact ⟨fun _ => Passes.text, fun _ h => h.passes, fun _ h => h.passes, fun _ => passes_refs, fun _ h => h.passes,
    fun _ => passes_actionKeys, fun _ => passes_actionKeys, fun _ => Passes.text, List.forall_mem_nil _⟩

theorem canonicalEnvironmentBinding_eq_ok {index : Nat} {binding : VerificationActionEnvironmentBinding} :
    canonicalEnvironmentBinding index v = .ok binding ↔ binding.IsValue v := by
  refine readRecord_eq_ok VerificationActionEnvironmentBinding.IsValue.passes fun ms => ?_
  simp only [bind_eq_ok, text_eq_ok, digest_eq_ok, pure_eq_ok, Except.ok.injEq, List.forall_mem_cons]
  constructor
  · rintro ⟨name, hname, digest, hdigest, rfl⟩
    exact ⟨hname, hdigest, List.forall_mem_nil _⟩
  · rintro ⟨hname, hdigest, -⟩
    exact ⟨_, hname, _, hdigest, rfl⟩

theorem canonicalInputRef_eq_ok {index : Nat} {ref : VerificationActionInputRef} :
    canonicalInputRef index v = .ok ref ↔ ref.IsValue v := by
  refine readRecord_eq_ok VerificationActionInputRef.IsValue.passes fun ms => ?_
  simp only [bind_eq_ok, relativeInputPath, checkedText_eq_ok, digest_eq_ok, pure_eq_ok, Except.ok.injEq,
    List.forall_mem_cons]
  constructor
  · rintro ⟨path, hpath, digest, hdigest, rfl⟩
    exact ⟨hpath, hdigest, List.forall_mem_nil _⟩
  · rintro ⟨hpath, hdigest, -⟩
    exact ⟨_, hpath, _, hdigest, rfl⟩

theorem canonicalEnvironmentBindings_eq_ok {items : BoundedList Value}
    {bindings : AscendingList VerificationActionEnvironmentBinding.key} :
    canonicalEnvironmentBindings items = .ok bindings ↔
      IsSet VerificationActionEnvironmentBinding.IsValue bindings.val (.arr items.val) := by
  have hread (index : Nat) (v : Value) (binding : VerificationActionEnvironmentBinding) :
      canonicalEnvironmentBinding index v = .ok binding ↔ binding.IsValue v := canonicalEnvironmentBinding_eq_ok
  rw [canonicalEnvironmentBindings]
  exact readSet_eq_ok hread

theorem canonicalInputClosure_eq_ok {items : BoundedList Value} {refs : AscendingList VerificationActionInputRef.key} :
    canonicalInputClosure items = .ok refs ↔ IsSet VerificationActionInputRef.IsValue refs.val (.arr items.val) := by
  have hread (index : Nat) (v : Value) (ref : VerificationActionInputRef) :
      canonicalInputRef index v = .ok ref ↔ ref.IsValue v := canonicalInputRef_eq_ok
  rw [canonicalInputClosure]
  exact readSet_eq_ok hread

theorem canonicalActionKeys_eq_ok {items : BoundedList Value} {label : Text} {keys : ActionKeyList} :
    canonicalActionKeys items label = .ok keys ↔ IsActionKeys keys (.arr items.val) := by
  have hread (index : Nat) (v : Value) (key : VerificationActionKeyDigest) :
      digest v (indexed label index) = .ok key ↔ IsText key.val v := digest_eq_ok
  rw [canonicalActionKeys]
  exact readSet_eq_ok hread

theorem canonicalProducer_eq_ok {ms : List (Text × Value)} {producer : VerificationActionProducer} :
    canonicalProducer ms = .ok producer ↔
      IsText producer.identity.val (member ms "identity") ∧ IsText producer.revision.val (member ms "revision") := by
  simp only [canonicalProducer, bind_eq_ok, text_eq_ok, pure_eq_ok, Except.ok.injEq]
  constructor
  · rintro ⟨identity, hidentity, revision, hrevision, rfl⟩
    exact ⟨hidentity, hrevision⟩
  · rintro ⟨hidentity, hrevision⟩
    exact ⟨_, hidentity, _, hrevision, rfl⟩

theorem canonicalOperation_eq_ok {ms : List (Text × Value)} {declared : BoundedList Value}
    {operation : VerificationActionOperation} :
    canonicalOperation ms declared = .ok operation ↔
      IsText operation.identity.val (member ms "identity") ∧ IsText operation.revision.val (member ms "revision") ∧
      IsText operation.semanticDigest.val (member ms "semanticDigest") ∧
      IsText operation.workingDirectory.val (member ms "workingDirectory") ∧
      IsSet VerificationActionEnvironmentBinding.IsValue operation.declaredEnvironment.val (.arr declared.val) := by
  simp only [canonicalOperation, bind_eq_ok, text_eq_ok, digest_eq_ok, relativeWorkingDirectory, checkedText_eq_ok,
    canonicalEnvironmentBindings_eq_ok, pure_eq_ok, Except.ok.injEq]
  constructor
  · rintro ⟨identity, hidentity, revision, hrevision, digest, hdigest, directory, hdirectory, bindings, hbindings, rfl⟩
    exact ⟨hidentity, hrevision, hdigest, hdirectory, hbindings⟩
  · rintro ⟨hidentity, hrevision, hdigest, hdirectory, hbindings⟩
    exact ⟨_, hidentity, _, hrevision, _, hdigest, _, hdirectory, _, hbindings, rfl⟩

theorem canonicalEnvironment_eq_ok {ms : List (Text × Value)} {environment : VerificationActionEnvironment} :
    canonicalEnvironment ms = .ok environment ↔
      IsText environment.toolchainRevision.val (member ms "toolchainRevision") ∧
      IsText environment.providerRevision.val (member ms "providerRevision") ∧
      IsText environment.contractRevision.val (member ms "contractRevision") := by
  simp only [canonicalEnvironment, bind_eq_ok, text_eq_ok, pure_eq_ok, Except.ok.injEq]
  constructor
  · rintro ⟨toolchain, htoolchain, provider, hprovider, contract, hcontract, rfl⟩
    exact ⟨htoolchain, hprovider, hcontract⟩
  · rintro ⟨htoolchain, hprovider, hcontract⟩
    exact ⟨_, htoolchain, _, hprovider, _, hcontract, rfl⟩

/-- An input passes every check exactly when it is the value of the canonical input. -/
theorem canonicalInput_eq_ok {input : VerificationActionKeyInput} : canonicalInput v = .ok input ↔ input.IsValue v := by
  constructor
  · intro h
    unfold canonicalInput at h
    obtain ⟨ms, hms, h⟩ := bind_eq_ok.mp h
    obtain ⟨-, h⟩ := check_bind_eq_ok.mp h
    obtain ⟨hkeys, h⟩ := check_bind_eq_ok.mp h
    obtain ⟨producer, hproducer, h⟩ := bind_eq_ok.mp h
    obtain ⟨hproducerKeys, h⟩ := check_bind_eq_ok.mp h
    obtain ⟨operation, hoperation, h⟩ := bind_eq_ok.mp h
    obtain ⟨hoperationKeys, h⟩ := check_bind_eq_ok.mp h
    obtain ⟨environment, henvironment, h⟩ := bind_eq_ok.mp h
    obtain ⟨henvironmentKeys, h⟩ := check_bind_eq_ok.mp h
    obtain ⟨declared, hdeclared, h⟩ := bind_eq_ok.mp h
    obtain ⟨closure, hclosure, h⟩ := bind_eq_ok.mp h
    obtain ⟨cheap, hcheap, h⟩ := bind_eq_ok.mp h
    obtain ⟨upstream, hupstream, h⟩ := bind_eq_ok.mp h
    obtain ⟨cheapKeys, hcheapKeys, h⟩ := bind_eq_ok.mp h
    obtain ⟨upstreamKeys, hupstreamKeys, h⟩ := bind_eq_ok.mp h
    obtain ⟨⟨hapart⟩, -, h⟩ := bind_eq_ok.mp h
    obtain ⟨kind, hkind, h⟩ := bind_eq_ok.mp h
    obtain ⟨producer', hproducer', h⟩ := bind_eq_ok.mp h
    obtain ⟨operation', hoperation', h⟩ := bind_eq_ok.mp h
    obtain ⟨closure', hclosure', h⟩ := bind_eq_ok.mp h
    obtain ⟨environment', henvironment', h⟩ := bind_eq_ok.mp h
    obtain ⟨revision, hrevision, h⟩ := bind_eq_ok.mp h
    obtain rfl := Except.ok.inj h
    have hproducer' := canonicalProducer_eq_ok.mp hproducer'
    have henvironment' := canonicalEnvironment_eq_ok.mp henvironment'
    obtain ⟨hidentity, hrevision', hdigest, hdirectory, hbindings⟩ := canonicalOperation_eq_ok.mp hoperation'
    refine ⟨ms, (ordinaryRecord_eq_ok.mp hms).2, exactKeys_eq_ok.mp hkeys, ?_⟩
    simp only [List.forall_mem_cons]
    refine ⟨text_eq_ok.mp hkind, ?_, ?_, ?_, ?_, ?_, ?_, text_eq_ok.mp hrevision, List.forall_mem_nil _⟩
    · refine ⟨producer, (ordinaryRecord_eq_ok.mp hproducer).2, exactKeys_eq_ok.mp hproducerKeys, ?_⟩
      simp only [List.forall_mem_cons]
      exact ⟨hproducer'.1, hproducer'.2, List.forall_mem_nil _⟩
    · refine ⟨operation, (ordinaryRecord_eq_ok.mp hoperation).2, exactKeys_eq_ok.mp hoperationKeys, ?_⟩
      simp only [List.forall_mem_cons]
      rw [(ordinaryArray_eq_ok.mp hdeclared).2]
      exact ⟨hidentity, hrevision', hdigest, hdirectory, hbindings, List.forall_mem_nil _⟩
    · rw [(ordinaryArray_eq_ok.mp hclosure).2]
      exact canonicalInputClosure_eq_ok.mp hclosure'
    · refine ⟨environment, (ordinaryRecord_eq_ok.mp henvironment).2, exactKeys_eq_ok.mp henvironmentKeys, ?_⟩
      simp only [List.forall_mem_cons]
      exact ⟨henvironment'.1, henvironment'.2.1, henvironment'.2.2, List.forall_mem_nil _⟩
    · rw [(ordinaryArray_eq_ok.mp hcheap).2]
      exact canonicalActionKeys_eq_ok.mp hcheapKeys
    · rw [(ordinaryArray_eq_ok.mp hupstream).2]
      exact canonicalActionKeys_eq_ok.mp hupstreamKeys
  · intro h
    obtain ⟨ms, hms, hkeys, hfields⟩ := h.ordinaryRecord h.passes keyInputLabel keyInputLabel
    simp only [List.forall_mem_cons] at hfields
    obtain ⟨hkind, hproducer, hoperation, hclosure, henvironment, hcheap, hupstream, hrevision, -⟩ := hfields
    obtain ⟨producer, hproducer', hproducerKeys, hproducer⟩ :=
      hproducer.ordinaryRecord hproducer.passes "producer" "producer"
    obtain ⟨operation, hoperation', hoperationKeys, hoperation⟩ :=
      hoperation.ordinaryRecord hoperation.passes "operation" "operation"
    obtain ⟨environment, henvironment', henvironmentKeys, henvironment⟩ :=
      henvironment.ordinaryRecord henvironment.passes "environment" "environment"
    simp only [List.forall_mem_cons] at hproducer hoperation henvironment
    obtain ⟨hproducerIdentity, hproducerRevision, -⟩ := hproducer
    obtain ⟨hidentity, hrevision', hdigest, hdirectory, hbindings, -⟩ := hoperation
    obtain ⟨htoolchain, hprovider, hcontract, -⟩ := henvironment
    obtain ⟨declared, hdeclared, hbindings⟩ :=
      hbindings.ordinaryArray (passes_bindings hbindings) "operation.declaredEnvironment"
    obtain ⟨closure, hclosure', hclosure⟩ := hclosure.ordinaryArray (passes_refs hclosure) "inputClosure"
    obtain ⟨cheap, hcheap', hcheap⟩ :=
      IsSet.ordinaryArray hcheap (passes_actionKeys hcheap) "requiredCheapPreflightActionKeys"
    obtain ⟨upstream, hupstream', hupstream⟩ :=
      IsSet.ordinaryArray hupstream (passes_actionKeys hupstream) "upstreamActionKeys"
    have hplain : assertNoIdentityKey keyInputLabel (.obj ms) = .ok () := by
      rw [← (ordinaryRecord_eq_ok.mp hms).2]
      exact (h.passes _).2
    have hapart : assertApart input.upstreamActionKeys input.requiredCheapPreflightActionKeys = .ok ⟨input.apart⟩ :=
      dif_pos input.apart
    unfold canonicalInput
    refine bind_eq_ok.mpr ⟨ms, hms, check_bind_eq_ok.mpr ⟨hplain, check_bind_eq_ok.mpr ⟨hkeys, ?_⟩⟩⟩
    refine bind_eq_ok.mpr ⟨producer, hproducer', check_bind_eq_ok.mpr ⟨hproducerKeys, ?_⟩⟩
    refine bind_eq_ok.mpr ⟨operation, hoperation', check_bind_eq_ok.mpr ⟨hoperationKeys, ?_⟩⟩
    refine bind_eq_ok.mpr ⟨environment, henvironment', check_bind_eq_ok.mpr ⟨henvironmentKeys, ?_⟩⟩
    refine bind_eq_ok.mpr ⟨declared, hdeclared, bind_eq_ok.mpr ⟨closure, hclosure', ?_⟩⟩
    refine bind_eq_ok.mpr ⟨cheap, hcheap', bind_eq_ok.mpr ⟨upstream, hupstream', ?_⟩⟩
    refine bind_eq_ok.mpr ⟨_, canonicalActionKeys_eq_ok.mpr hcheap, ?_⟩
    refine bind_eq_ok.mpr ⟨_, canonicalActionKeys_eq_ok.mpr hupstream, bind_eq_ok.mpr ⟨_, hapart, ?_⟩⟩
    refine bind_eq_ok.mpr ⟨_, text_eq_ok.mpr hkind, ?_⟩
    refine bind_eq_ok.mpr ⟨_, canonicalProducer_eq_ok.mpr ⟨hproducerIdentity, hproducerRevision⟩, ?_⟩
    refine bind_eq_ok.mpr
      ⟨_, canonicalOperation_eq_ok.mpr ⟨hidentity, hrevision', hdigest, hdirectory, hbindings⟩, ?_⟩
    refine bind_eq_ok.mpr ⟨_, canonicalInputClosure_eq_ok.mpr hclosure, ?_⟩
    refine bind_eq_ok.mpr ⟨_, canonicalEnvironment_eq_ok.mpr ⟨htoolchain, hprovider, hcontract⟩, ?_⟩
    exact bind_eq_ok.mpr ⟨_, text_eq_ok.mpr hrevision, rfl⟩

end Inputs

end SecPlatform.VerificationAction
