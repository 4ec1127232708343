import SecPlatform.VerificationAction.Lemmas.Contents

/-!
# Actions read back

The value of an Action is written as it is, and every parser returns the record whose value it is given.
-/

namespace SecPlatform.VerificationAction

open Contracts

/-! ## Single values -/

@[simp] theorem checkedText_val {p : Text → Bool} (t : { t : Text // p t }) (failure : ActionFailure) :
    checkedText (.str t.val) failure = .ok t := dif_pos t.2

theorem checkedText_ok {p : Text → Bool} {value : Text} {failure : ActionFailure} {t : { t : Text // p t }} :
    checkedText (.str value) failure = .ok t ↔ t.val = value :=
  checkedText_eq_ok.trans ⟨fun h => (Json.str.inj h).symm, fun h => congrArg Json.str h.symm⟩

@[simp] theorem text_val (t : BoundedText) (label : Text) : text (.str t.val) label = .ok t := checkedText_val t _

@[simp] theorem digest_val (d : Digest) (label : Text) : digest (.str d.val) label = .ok d := checkedText_val d _

@[simp] theorem relativeInputPath_val (path : RelativeInputPath) (label : Text) :
    relativeInputPath (.str path.val) label = .ok path := checkedText_val path _

@[simp] theorem relativeWorkingDirectory_val (directory : RelativeWorkingDirectory) (label : Text) :
    relativeWorkingDirectory (.str directory.val) label = .ok directory := checkedText_val directory _

/-! ## Lists -/

section Lists

variable {α : Type}

/-- A list of values, each of them the value of a record, is read back as the records. -/
theorem mapIndexed_toValue {toValue : α → Value} {f : Nat → Value → Except ActionFailure α} {items : List α}
    (hf : ∀ index item, f index (toValue item) = .ok item) (h : (items.map toValue).length ≤ maximumArrayLength) :
    BoundedList.mapIndexed f ⟨items.map toValue, h⟩ = .ok ⟨items, by simpa using h⟩ := by
  have hmap : (items.map toValue).zipIdx.mapM (fun place => f place.2 place.1) = .ok items := by
    rw [mapM_eq_ok, List.forall₂_iff_get]
    refine ⟨by simp, fun i _ _ => ?_⟩
    simp [hf]
  unfold BoundedList.mapIndexed
  split
  · rename_i mapped hmapped
    obtain rfl := Except.ok.inj (hmapped.symm.trans hmap)
    rfl
  · rename_i hmapped
    cases hmapped.symm.trans hmap

end Lists

/-! ## Values are written as they are -/

theorem written_binding (binding : VerificationActionEnvironmentBinding) : Written binding.toValue :=
  written_obj (by dsimp only [VerificationActionEnvironmentBinding.members, List.map]; decide)
    (by simp [VerificationActionEnvironmentBinding.members])

theorem written_ref (ref : VerificationActionInputRef) : Written ref.toValue :=
  written_obj (by dsimp only [VerificationActionInputRef.members, List.map]; decide)
    (by simp [VerificationActionInputRef.members])

theorem written_producer (producer : VerificationActionProducer) : Written producer.toValue :=
  written_obj (by dsimp only [VerificationActionProducer.members, List.map]; decide)
    (by simp [VerificationActionProducer.members])

theorem written_environment (environment : VerificationActionEnvironment) : Written environment.toValue :=
  written_obj (by dsimp only [VerificationActionEnvironment.members, List.map]; decide)
    (by simp [VerificationActionEnvironment.members])

theorem written_bindings (bindings : AscendingList VerificationActionEnvironmentBinding.key) :
    Written (.arr (bindings.val.map VerificationActionEnvironmentBinding.toValue)) := by
  refine written_arr (by simpa using bindings.2.1) fun v hv => ?_
  obtain ⟨binding, -, rfl⟩ := List.mem_map.mp hv
  exact written_binding binding

theorem written_refs (refs : AscendingList VerificationActionInputRef.key) :
    Written (.arr (refs.val.map VerificationActionInputRef.toValue)) := by
  refine written_arr (by simpa using refs.2.1) fun v hv => ?_
  obtain ⟨ref, -, rfl⟩ := List.mem_map.mp hv
  exact written_ref ref

theorem written_digestArray {digests : List Digest} (h : digests.length ≤ maximumArrayLength) :
    Written (digestArray digests) := by
  refine written_arr (by simpa using h) fun v hv => ?_
  obtain ⟨d, -, rfl⟩ := List.mem_map.mp hv
  exact written_str _

theorem written_actionKeys (keys : ActionKeyList) : Written (digestArray keys.val) := written_digestArray keys.2.1

theorem written_operation (operation : VerificationActionOperation) : Written operation.toValue :=
  written_obj (by dsimp only [VerificationActionOperation.members, List.map]; decide)
    (by simp [VerificationActionOperation.members, written_bindings])

theorem written_keyInput (input : VerificationActionKeyInput) : Written input.toValue :=
  written_obj (by dsimp only [VerificationActionKeyInput.members, List.map]; decide)
    (by simp [VerificationActionKeyInput.members, written_environment, written_refs, written_operation, written_producer,
      written_actionKeys])

theorem written_action [Sha256] (action : VerificationActionKey) : Written action.toValue :=
  written_obj (by dsimp only [VerificationActionKey.members, List.map]; decide)
    (by simp [VerificationActionKey.members, written_environment, written_refs, written_operation, written_producer,
      written_actionKeys])

/-! ## Records read back -/

theorem isSet_map {α : Type} {isValue : α → Value → Prop} {toValue : α → Value} (h : ∀ a, isValue a (toValue a))
    (items : List α) : IsSet isValue items (.arr (items.map toValue)) :=
  ⟨_, rfl, items, .refl _, List.forall₂_map_right_iff.mpr (List.forall₂_same.mpr fun a _ => h a)⟩

theorem isValue_producer (producer : VerificationActionProducer) : producer.IsValue producer.toValue := by
  refine ⟨_, rfl, by dsimp only [VerificationActionProducer.members, List.map]; decide, ?_⟩
  simp only [List.forall_mem_cons]
  exact ⟨rfl, rfl, List.forall_mem_nil _⟩

theorem isValue_binding (binding : VerificationActionEnvironmentBinding) : binding.IsValue binding.toValue := by
  refine ⟨_, rfl, by dsimp only [VerificationActionEnvironmentBinding.members, List.map]; decide, ?_⟩
  simp only [List.forall_mem_cons]
  exact ⟨rfl, rfl, List.forall_mem_nil _⟩

theorem isValue_ref (ref : VerificationActionInputRef) : ref.IsValue ref.toValue := by
  refine ⟨_, rfl, by dsimp only [VerificationActionInputRef.members, List.map]; decide, ?_⟩
  simp only [List.forall_mem_cons]
  exact ⟨rfl, rfl, List.forall_mem_nil _⟩

theorem isValue_environment (environment : VerificationActionEnvironment) : environment.IsValue environment.toValue := by
  refine ⟨_, rfl, by dsimp only [VerificationActionEnvironment.members, List.map]; decide, ?_⟩
  simp only [List.forall_mem_cons]
  exact ⟨rfl, rfl, rfl, List.forall_mem_nil _⟩

theorem isValue_operation (operation : VerificationActionOperation) : operation.IsValue operation.toValue := by
  refine ⟨_, rfl, by dsimp only [VerificationActionOperation.members, List.map]; decide, ?_⟩
  simp only [List.forall_mem_cons]
  exact ⟨rfl, rfl, rfl, rfl, isSet_map isValue_binding _, List.forall_mem_nil _⟩

theorem isActionKeys_digestArray (keys : ActionKeyList) : IsActionKeys keys (digestArray keys.val) := by
  have hkey (key : VerificationActionKeyDigest) : IsText key.val (digestValue key) := rfl
  exact isSet_map hkey keys.val

/-- The members of an input, in whatever order, are a value of the input. -/
theorem isValue_perm (input : VerificationActionKeyInput) {members : List (Text × Value)}
    (hperm : members.Perm input.members) : input.IsValue (.obj members) := by
  have hget := member_perm (written_keyInput input) hperm
  refine ⟨members, rfl, (hperm.map _).trans ?_, ?_⟩
  · dsimp only [VerificationActionKeyInput.members, List.map]
    decide
  · simp only [List.forall_mem_cons, hget]
    exact ⟨rfl, isValue_producer _, isValue_operation _, isSet_map isValue_ref _, isValue_environment _,
      isActionKeys_digestArray _, isActionKeys_digestArray _, rfl, List.forall_mem_nil _⟩

/-- The value of an input, its members in whatever order, is read back as the input. -/
theorem canonicalInput_perm (input : VerificationActionKeyInput) {members : List (Text × Value)}
    (hperm : members.Perm input.members) : canonicalInput (.obj members) = .ok input :=
  canonicalInput_eq_ok.mpr (isValue_perm input hperm)

/-! ## Keys -/

theorem parseJson_written {v : Value} (h : Written v) : parseJson (Json.render v) = .ok v := by
  rw [parseJson, parse_written h]

/-- The text of an Action is read back as the Action. -/
theorem parseVerificationActionKey_render [Sha256] (action : VerificationActionKey) :
    parseVerificationActionKey (Json.render action.toValue) = .ok action := by
  have hwithout : (keyInputKeys.map fun key => (key, member action.members key)).Perm
      action.toVerificationActionKeyInput.members := by
    have hkeys : keyInputKeys.Perm (action.toVerificationActionKeyInput.members.map Prod.fst) := by
      dsimp only [VerificationActionKeyInput.members, List.map]
      decide
    exact hkeys.map fun key => (key, member action.members key)
  unfold parseVerificationActionKey
  rw [parseJson_written (written_action action), ok_bind, VerificationActionKey.toValue,
    ordinaryRecord_written (written_action action), ok_bind, exactKeys_written, ok_bind,
    show member action.members "schema" = .str verificationActionKeySchema from rfl, require, if_pos rfl, ok_bind]
  dsimp only
  rw [canonicalInput_perm _ hwithout, ok_bind, show member action.members "actionKey" = .str action.actionKey.val from rfl,
    require, if_pos (by rw [action.binds]), ok_bind, createVerificationActionKey, VerificationActionKeyInput.toValue,
    canonicalInput_perm _ (.refl _), ok_bind]
  · obtain ⟨input, actionKey, rfl⟩ := action
    rfl
  · dsimp only [VerificationActionKey.members, List.map]
    decide

end SecPlatform.VerificationAction
