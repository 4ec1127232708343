import SecPlatform.Upgrade.MigrationRules
import SecPlatform.Library.Lemmas.JsonObject

/-!
# What the migration rules leave in a document

A change that settles the object it is made in settles the whole document. A list of updates may make and unmake a
parent, so its effect is described path by path: an update either decides what stands at a path, whatever was there
before, or leaves it.
-/

namespace SecPlatform.Upgrade

open SecPlatform.Contracts (Value CodedFailure)

variable {current next source : Members} {key : Text} {value : Value} {path : List Text}

/-! ## Own data -/

@[simp] theorem assertSafeJsonMutationKey_eq_ok {field : Text} :
    assertSafeJsonMutationKey key field = .ok () ↔ key ∉ reservedKeys := require_eq_ok

theorem readOwnJsonMutationValue_eq_ok {found : Option Value} :
    readOwnJsonMutationValue current key = .ok found ↔ key ∉ reservedKeys ∧ Json.get? key current = found := by
  unfold readOwnJsonMutationValue
  rw [check_bind_eq_ok, assertSafeJsonMutationKey_eq_ok, pure_eq_ok, Except.ok.injEq]

theorem setOwnJsonValue_eq_ok :
    setOwnJsonValue current key value = .ok next ↔ key ∉ reservedKeys ∧ Json.define current key value = next := by
  unfold setOwnJsonValue
  rw [check_bind_eq_ok, assertSafeJsonMutationKey_eq_ok, pure_eq_ok, Except.ok.injEq]

theorem assertSafeJsonMutationPath_eq_ok {field : Text} :
    assertSafeJsonMutationPath path field = .ok () ↔ ∀ segment ∈ path, segment ∉ reservedKeys := by
  unfold assertSafeJsonMutationPath
  simp only [forM_eq_ok, assertSafeJsonMutationKey_eq_ok]

theorem get?_deleteOwn (key' : Text) :
    Json.get? key' (deleteOwn current key) = if key = key' then none else Json.get? key' current := by
  induction current with
  | nil => simp [deleteOwn, Json.get?]
  | cons m current ih =>
      obtain ⟨k, v⟩ := m
      rw [deleteOwn] at ih ⊢
      by_cases hk : k = key
      · subst hk
        rw [List.filter_cons_of_neg (by simp), ih, Json.get?]
        split <;> rfl
      · rw [List.filter_cons_of_pos (by simpa using hk), Json.get?, Json.get?, ih]
        by_cases hkey : k = key'
        · rw [if_pos hkey, if_pos hkey, if_neg (by rintro rfl; exact hk hkey)]
        · rw [if_neg hkey, if_neg hkey]

/-! ## Walks -/

section Walk

variable {enter : Option Value → Except CodedFailure (Option Members)}
  {change : Members → Text → Except CodedFailure Members}

/-- A step of a walk, down to the object under a segment or no further. -/
theorem updateAt_cons_eq_ok {segment second : Text} {rest : List Text} :
    updateAt enter change (segment :: second :: rest) current = .ok next ↔
      segment ∉ reservedKeys ∧ ∃ entered, enter (Json.get? segment current) = .ok entered ∧
        ((entered = none ∧ next = current) ∨ ∃ inner inner', entered = some inner ∧
          updateAt enter change (second :: rest) inner = .ok inner' ∧
          next = Json.define current segment (.obj inner')) := by
  rw [updateAt.eq_def]
  dsimp only
  constructor
  · intro h
    obtain ⟨found, hread, h⟩ := bind_eq_ok.mp h
    obtain ⟨hsafe, rfl⟩ := readOwnJsonMutationValue_eq_ok.mp hread
    obtain ⟨entered, henter, h⟩ := bind_eq_ok.mp h
    refine ⟨hsafe, entered, henter, ?_⟩
    cases entered with
    | none => exact .inl ⟨rfl, (Except.ok.inj h).symm⟩
    | some inner =>
        obtain ⟨inner', hinner, h⟩ := bind_eq_ok.mp h
        exact .inr ⟨inner, inner', rfl, hinner, (setOwnJsonValue_eq_ok.mp h).2.symm⟩
  · rintro ⟨hsafe, entered, henter, ⟨rfl, rfl⟩ | ⟨inner, inner', rfl, hinner, rfl⟩⟩
    · exact bind_eq_ok.mpr ⟨_, readOwnJsonMutationValue_eq_ok.mpr ⟨hsafe, rfl⟩, bind_eq_ok.mpr ⟨_, henter, rfl⟩⟩
    · exact bind_eq_ok.mpr ⟨_, readOwnJsonMutationValue_eq_ok.mpr ⟨hsafe, rfl⟩, bind_eq_ok.mpr ⟨_, henter,
        bind_eq_ok.mpr ⟨_, hinner, setOwnJsonValue_eq_ok.mpr ⟨hsafe, rfl⟩⟩⟩⟩

/-- A walk enters every object that stands in its way. -/
def Enters (enter : Option Value → Except CodedFailure (Option Members)) : Prop :=
  ∀ inner, enter (some (.obj inner)) = .ok (some inner)

/-- A change made again changes nothing. -/
def Settles (change : Members → Text → Except CodedFailure Members) : Prop :=
  ∀ current key next, change current key = .ok next → change next key = .ok next

theorem updateAt_again (henter : Enters enter) (hchange : Settles change)
    (h : updateAt enter change path current = .ok next) : updateAt enter change path next = .ok next := by
  induction path generalizing current next with
  | nil => rfl
  | cons segment path ih =>
      cases path with
      | nil => exact hchange _ _ _ h
      | cons second rest =>
          obtain ⟨hsafe, entered, hentered, ⟨rfl, rfl⟩ | ⟨inner, inner', rfl, hinner, rfl⟩⟩ :=
            updateAt_cons_eq_ok.mp h
          · exact h
          · have hfound : Json.get? segment (Json.define current segment (.obj inner')) = some (.obj inner') := by
              rw [Json.get?_define, if_pos rfl]
            refine updateAt_cons_eq_ok.mpr ⟨hsafe, some inner', hfound ▸ henter inner', .inr ⟨inner', inner', rfl,
              ih hinner, (Json.define_of_get? hfound).symm⟩⟩

end Walk

/-! ## Items -/

/-- A loop that appends items keeps the texts of what the array holds, those of every item among them in the end. -/
theorem foldl_appendItem (items existing : List Value) :
    (items.foldl appendItem (existing, existing.map serializedItem)).2 =
        (items.foldl appendItem (existing, existing.map serializedItem)).1.map serializedItem ∧
      ∀ item, item ∈ existing ∨ item ∈ items →
        serializedItem item ∈ (items.foldl appendItem (existing, existing.map serializedItem)).2 := by
  induction items generalizing existing with
  | nil =>
      refine ⟨rfl, fun item hitem => ?_⟩
      exact List.mem_map_of_mem (hitem.resolve_right List.not_mem_nil)
  | cons first items ih =>
      rw [List.foldl_cons, appendItem]
      split
      · rename_i hfirst
        refine ⟨(ih existing).1, fun item hitem => ?_⟩
        rcases hitem with hitem | hitem
        · exact (ih existing).2 item (.inl hitem)
        · rcases List.mem_cons.mp hitem with rfl | hitem
          · obtain ⟨old, hold, htext⟩ := List.mem_map.mp hfirst
            exact htext ▸ (ih existing).2 old (.inl hold)
          · exact (ih existing).2 item (.inr hitem)
      · have hseen : existing.map serializedItem ++ [serializedItem first] = (existing ++ [first]).map serializedItem := by
          rw [List.map_append, List.map_singleton]
        rw [hseen]
        refine ⟨(ih (existing ++ [first])).1, fun item hitem => (ih (existing ++ [first])).2 item ?_⟩
        rcases hitem with hitem | hitem
        · exact .inl (List.mem_append_left _ hitem)
        · rcases List.mem_cons.mp hitem with rfl | hitem
          · exact .inl (List.mem_append_right _ (List.mem_singleton_self _))
          · exact .inr hitem

/-- No item is appended whose text has been seen. -/
theorem foldl_appendItem_of_seen {items : List Value} {state : List Value × List Text} (h : ∀ item ∈ items, serializedItem item ∈ state.2) :
    items.foldl appendItem state = state := by
  induction items with
  | nil => rfl
  | cons first items ih =>
      rw [List.forall_mem_cons] at h
      rw [List.foldl_cons, appendItem, if_pos h.1, ih h.2]

theorem settles_appendItems (items : List Value) : Settles (appendItems items) := by
  intro current key next h
  unfold appendItems at h ⊢
  obtain ⟨target, hread, h⟩ := bind_eq_ok.mp h
  obtain ⟨existing, -, h⟩ := bind_eq_ok.mp h
  obtain ⟨hsafe, rfl⟩ := setOwnJsonValue_eq_ok.mp h
  obtain ⟨htexts, hseen⟩ := foldl_appendItem items existing
  generalize items.foldl appendItem (existing, existing.map serializedItem) = state at htexts hseen ⊢
  have hfound : Json.get? key (Json.define current key (.arr state.1)) = some (.arr state.1) := by
    rw [Json.get?_define, if_pos rfl]
  have hagain : items.foldl appendItem (state.1, state.1.map serializedItem) = (state.1, state.1.map serializedItem) :=
    foldl_appendItem_of_seen fun item hitem => htexts ▸ hseen item (.inr hitem)
  refine bind_eq_ok.mpr ⟨_, readOwnJsonMutationValue_eq_ok.mpr ⟨hsafe, hfound⟩, bind_eq_ok.mpr ⟨_, rfl, ?_⟩⟩
  rw [hagain]
  exact setOwnJsonValue_eq_ok.mpr ⟨hsafe, Json.define_of_get? hfound⟩

theorem settles_removeItems (items : List Value) : Settles (removeItems items) := by
  intro current key next h
  have hagain := h
  unfold removeItems at h
  obtain ⟨found, hread, h⟩ := bind_eq_ok.mp h
  obtain ⟨hsafe, hfound⟩ := readOwnJsonMutationValue_eq_ok.mp hread
  split at h
  · obtain rfl := Except.ok.inj h
    exact hagain
  · rename_i target
    obtain ⟨-, rfl⟩ := setOwnJsonValue_eq_ok.mp h
    have hfound' : Json.get? key (Json.define current key
        (.arr (target.filter fun item => serializedItem item ∉ items.map serializedItem))) =
          some (.arr (target.filter fun item => serializedItem item ∉ items.map serializedItem)) := by
      rw [Json.get?_define, if_pos rfl]
    unfold removeItems
    refine bind_eq_ok.mpr ⟨_, readOwnJsonMutationValue_eq_ok.mpr ⟨hsafe, hfound'⟩, ?_⟩
    dsimp only
    rw [List.filter_filter]
    simp only [Bool.and_self]
    exact setOwnJsonValue_eq_ok.mpr ⟨hsafe, Json.define_of_get? hfound'⟩
  · cases h

/-! ## Merges -/

theorem assertSafeJsonMergeObject_eq_ok {field : Text} :
    assertSafeJsonMergeObject field source = .ok () ↔
      ∀ m ∈ source, m.1 ∉ reservedKeys ∧ assertSafeJsonMergeValue field m.2 = .ok () := by
  induction source with
  | nil => simp [assertSafeJsonMergeObject]
  | cons m source ih =>
      rw [assertSafeJsonMergeObject, check_bind_eq_ok, check_bind_eq_ok, assertSafeJsonMutationKey_eq_ok, ih,
        List.forall_mem_cons, and_assoc]

theorem mergeJsonObjects_cons_eq_ok {target : Members} :
    mergeJsonObjects target ((key, value) :: source) = .ok next ↔
      key ∉ reservedKeys ∧ ∃ merged, mergeJsonValue (Json.get? key target) value = .ok merged ∧
        mergeJsonObjects (Json.define target key merged) source = .ok next := by
  rw [mergeJsonObjects, check_bind_eq_ok, assertSafeJsonMutationKey_eq_ok]
  constructor
  · rintro ⟨hsafe, h⟩
    obtain ⟨existing, hread, h⟩ := bind_eq_ok.mp h
    obtain ⟨-, rfl⟩ := readOwnJsonMutationValue_eq_ok.mp hread
    obtain ⟨merged, hmerged, h⟩ := bind_eq_ok.mp h
    obtain ⟨target', hset, h⟩ := bind_eq_ok.mp h
    obtain ⟨-, rfl⟩ := setOwnJsonValue_eq_ok.mp hset
    exact ⟨hsafe, merged, hmerged, h⟩
  · rintro ⟨hsafe, merged, hmerged, h⟩
    exact ⟨hsafe, bind_eq_ok.mpr ⟨_, readOwnJsonMutationValue_eq_ok.mpr ⟨hsafe, rfl⟩, bind_eq_ok.mpr ⟨_, hmerged,
      bind_eq_ok.mpr ⟨_, setOwnJsonValue_eq_ok.mpr ⟨hsafe, rfl⟩, h⟩⟩⟩⟩

/-- A merge of nothing but what an object holds already leaves the object as it is. -/
theorem mergeJsonObjects_of_absorbed {target : Members}
    (h : ∀ m ∈ source, m.1 ∉ reservedKeys ∧
      ∃ held, Json.get? m.1 target = some held ∧ mergeJsonValue (some held) m.2 = .ok held) :
    mergeJsonObjects target source = .ok target := by
  induction source with
  | nil => rfl
  | cons m source ih =>
      obtain ⟨⟨hsafe, held, hheld, hmerge⟩, hrest⟩ := List.forall_mem_cons.mp h
      refine mergeJsonObjects_cons_eq_ok.mpr ⟨hsafe, held, hheld ▸ hmerge, ?_⟩
      rw [Json.define_of_get? hheld]
      exact ih hrest

/-- A merge leaves under each key of its source what it made of that key. -/
theorem merged_of_mergeJsonObjects {target : Members} (hnodup : (source.map Prod.fst).Nodup)
    (h : mergeJsonObjects target source = .ok next) :
    (∀ m ∈ source, ∃ existing merged, mergeJsonValue existing m.2 = .ok merged ∧ Json.get? m.1 next = some merged) ∧
      ∀ key ∉ source.map Prod.fst, Json.get? key next = Json.get? key target := by
  induction source generalizing target with
  | nil =>
      cases h
      exact ⟨nofun, fun _ _ => rfl⟩
  | cons m source ih =>
      obtain ⟨key, value⟩ := m
      rw [List.map_cons, List.nodup_cons] at hnodup
      obtain ⟨-, merged, hmerged, h⟩ := mergeJsonObjects_cons_eq_ok.mp h
      obtain ⟨hheld, hother⟩ := ih hnodup.2 h
      refine ⟨List.forall_mem_cons.mpr ⟨⟨_, merged, hmerged, ?_⟩, hheld⟩, fun other hnot => ?_⟩
      · rw [hother key hnodup.1, Json.get?_define, if_pos rfl]
      · rw [List.map_cons, List.mem_cons, not_or] at hnot
        rw [hother other hnot.2, Json.get?_define, if_neg (Ne.symm hnot.1)]

mutual
/-- A value merged into itself stays as it is. -/
theorem mergeJsonValue_self {field : Text} : (value : Value) → value.UniqueKeys →
    assertSafeJsonMergeValue field value = .ok () → mergeJsonValue (some value) value = .ok value
  | .obj source, hunique, hsafe => by
      have hself := mergeMembers_self source hunique.2 hsafe
      have hmerge : mergeJsonObjects source source = .ok source :=
        mergeJsonObjects_of_absorbed fun m hm =>
          ⟨(assertSafeJsonMergeObject_eq_ok.mp hsafe m hm).1, m.2, Json.get?_of_mem hunique.1 hm, hself m hm⟩
      rw [mergeJsonValue, hmerge]
      rfl
  | .null, _, _ | .bool _, _, _ | .num _, _, _ | .str _, _, _ | .arr _, _, _ => rfl

theorem mergeMembers_self {field : Text} : (source : Members) → Json.UniqueKeysMembers source →
    assertSafeJsonMergeObject field source = .ok () → ∀ m ∈ source, mergeJsonValue (some m.2) m.2 = .ok m.2
  | [], _, _ => nofun
  | (_, value) :: source, hunique, hsafe => by
      obtain ⟨⟨-, hvalue⟩, hrest⟩ := List.forall_mem_cons.mp (assertSafeJsonMergeObject_eq_ok.mp hsafe)
      exact List.forall_mem_cons.mpr ⟨mergeJsonValue_self value hunique.1 hvalue,
        mergeMembers_self source hunique.2 (assertSafeJsonMergeObject_eq_ok.mpr hrest)⟩
end

mutual
/-- A value merged into what the same merge left changes nothing. -/
theorem mergeJsonValue_again {field : Text} : (value : Value) → value.UniqueKeys →
    assertSafeJsonMergeValue field value = .ok () → ∀ existing merged, mergeJsonValue existing value = .ok merged →
      mergeJsonValue (some merged) value = .ok merged
  | .obj source, hunique, hsafe => by
      intro existing merged h
      unfold mergeJsonValue at h
      split at h
      · obtain ⟨next, hnext, h⟩ := bind_eq_ok.mp h
        obtain rfl := Except.ok.inj h
        have hagain := mergeMembers_again source hunique.2 hsafe
        have hheld := (merged_of_mergeJsonObjects hunique.1 hnext).1
        have hmerge : mergeJsonObjects next source = .ok next := mergeJsonObjects_of_absorbed fun m hm => by
          obtain ⟨existing, held, hmerged, hget⟩ := hheld m hm
          exact ⟨(assertSafeJsonMergeObject_eq_ok.mp hsafe m hm).1, held, hget, hagain m hm existing held hmerged⟩
        rw [mergeJsonValue, hmerge]
        rfl
      · obtain rfl := Except.ok.inj h
        exact mergeJsonValue_self _ hunique hsafe
  | .null, _, _ | .bool _, _, _ | .num _, _, _ | .str _, _, _ | .arr _, _, _ => fun _ _ h => h

theorem mergeMembers_again {field : Text} : (source : Members) → Json.UniqueKeysMembers source →
    assertSafeJsonMergeObject field source = .ok () → ∀ m ∈ source, ∀ existing merged,
      mergeJsonValue existing m.2 = .ok merged → mergeJsonValue (some merged) m.2 = .ok merged
  | [], _, _ => nofun
  | (_, value) :: source, hunique, hsafe => by
      obtain ⟨⟨-, hvalue⟩, hrest⟩ := List.forall_mem_cons.mp (assertSafeJsonMergeObject_eq_ok.mp hsafe)
      exact List.forall_mem_cons.mpr ⟨mergeJsonValue_again value hunique.1 hvalue,
        mergeMembers_again source hunique.2 (assertSafeJsonMergeObject_eq_ok.mpr hrest)⟩
end

theorem settles_mergeTarget {field : Text} (hunique : (Json.obj source : Value).UniqueKeys)
    (hsafe : assertSafeJsonMergeObject field source = .ok ()) : Settles (mergeTarget source) := by
  intro current key next h
  unfold mergeTarget at h ⊢
  obtain ⟨target, -, h⟩ := bind_eq_ok.mp h
  obtain ⟨targetObject, -, h⟩ := bind_eq_ok.mp h
  obtain ⟨merged, hmerged, h⟩ := bind_eq_ok.mp h
  obtain ⟨hkey, rfl⟩ := setOwnJsonValue_eq_ok.mp h
  have hfound : Json.get? key (Json.define current key (.obj merged)) = some (.obj merged) := by
    rw [Json.get?_define, if_pos rfl]
  have hvalue : mergeJsonValue (some (.obj targetObject)) (.obj source) = .ok (.obj merged) := by
    rw [mergeJsonValue, hmerged]
    rfl
  have hagain := mergeJsonValue_again (.obj source) hunique hsafe _ _ hvalue
  rw [mergeJsonValue] at hagain
  obtain ⟨merged', hmerged', heq⟩ := bind_eq_ok.mp hagain
  obtain rfl := Json.obj.inj (Except.ok.inj heq)
  exact bind_eq_ok.mpr ⟨_, readOwnJsonMutationValue_eq_ok.mpr ⟨hkey, hfound⟩, bind_eq_ok.mpr ⟨_, rfl,
    bind_eq_ok.mpr ⟨_, hmerged', setOwnJsonValue_eq_ok.mpr ⟨hkey, Json.define_of_get? hfound⟩⟩⟩⟩

/-! ## Updates -/

namespace ConfigOperation

/-- What an operation leaves at its path and below. -/
def left : ConfigOperation → List Text → Option Content
  | .set value, below => contentAt value below
  | .delete, _ => none

/-- What an operation decides above its path: a parent of a value is an object. -/
def above : ConfigOperation → Option (Option Content)
  | .set _ => some (some .object)
  | .delete => none

/-- What an operation at `path` leaves at another path, when that does not depend on the document. -/
def decidedAt (operation : ConfigOperation) : (path other : List Text) → Option (Option Content)
  | [], other => some (operation.left other)
  | _ :: _, [] => operation.above
  | key :: path, key' :: other => if key = key' then operation.decidedAt path other else none

/-- The walk of an operation. -/
def run (operation : ConfigOperation) (path : List Text) (root : Members) : Except CodedFailure Members :=
  match operation with
  | .set value => updateAt createParent (fun current key => setOwnJsonValue current key value) path root
  | .delete => updateAt existingParent (fun current key => .ok (deleteOwn current key)) path root

/-- Where a parent is missing or no object, a deletion has nothing to delete. -/
theorem decidedAt_delete {path other : List Text} {content : Option Content}
    (h : decidedAt .delete path other = some content) : content = none ∧ path <+: other := by
  induction path generalizing other with
  | nil => exact ⟨(Option.some.inj h).symm, List.nil_prefix⟩
  | cons key path ih =>
      cases other with
      | nil => cases h
      | cons key' other =>
          rw [decidedAt] at h
          split at h
          · rename_i hkey
            obtain ⟨hcontent, hprefix⟩ := ih h
            exact ⟨hcontent, hkey ▸ (List.prefix_cons_inj key).mpr hprefix⟩
          · cases h

end ConfigOperation

theorem contentAt_obj_cons (key : Text) (path : List Text) :
    contentAt (.obj current) (key :: path) = (Json.get? key current).bind fun value => contentAt value path := by
  rw [contentAt]
  cases Json.get? key current <;> rfl

/-- Below a key that is missing or no object there is nothing. -/
theorem contentAt_below_leaf {found : Option Value} (h : ∀ inner, found ≠ some (.obj inner)) (key : Text)
    (path : List Text) : (found.bind fun value => contentAt value (key :: path)) = none := by
  cases found with
  | none => rfl
  | some value =>
      cases value with
      | obj inner => exact absurd rfl (h inner)
      | null | bool _ | num _ | str _ | arr _ => rfl

theorem createParent_eq_ok {found : Option Value} {entered : Option Members} (h : createParent found = .ok entered) :
    (∃ inner, found = some (.obj inner) ∧ entered = some inner) ∨
      ((∀ inner, found ≠ some (.obj inner)) ∧ entered = some []) := by
  unfold createParent at h
  split at h
  · exact .inl ⟨_, rfl, (Except.ok.inj h).symm⟩
  · rename_i hleaf
    exact .inr ⟨hleaf, (Except.ok.inj h).symm⟩

theorem existingParent_eq_ok {found : Option Value} {entered : Option Members}
    (h : existingParent found = .ok entered) :
    (∃ inner, found = some (.obj inner) ∧ entered = some inner) ∨
      ((∀ inner, found ≠ some (.obj inner)) ∧ entered = none) := by
  unfold existingParent at h
  split at h
  · exact .inl ⟨_, rfl, (Except.ok.inj h).symm⟩
  · rename_i hleaf
    exact .inr ⟨hleaf, (Except.ok.inj h).symm⟩

theorem contentAt_setValue (h : setOwnJsonValue current key value = .ok next) (path : List Text) :
    contentAt (.obj next) path = ((ConfigOperation.set value).decidedAt [key] path).getD (contentAt (.obj current) path) := by
  obtain ⟨-, rfl⟩ := setOwnJsonValue_eq_ok.mp h
  cases path with
  | nil => rfl
  | cons key' path =>
      rw [contentAt_obj_cons, contentAt_obj_cons, Json.get?_define, ConfigOperation.decidedAt]
      split <;> rfl

theorem contentAt_deleteOwn (path : List Text) :
    contentAt (.obj (deleteOwn current key)) path =
      (ConfigOperation.delete.decidedAt [key] path).getD (contentAt (.obj current) path) := by
  cases path with
  | nil => rfl
  | cons key' path =>
      rw [contentAt_obj_cons, contentAt_obj_cons, get?_deleteOwn, ConfigOperation.decidedAt]
      split <;> rfl

/-- The object under the first segment carries what an operation leaves below that segment. -/
theorem contentAt_define_inner {operation : ConfigOperation} {segment second : Text} {rest : List Text}
    {inner inner' : Members}
    (hinner : ∀ other, contentAt (.obj inner') other =
      (operation.decidedAt (second :: rest) other).getD (contentAt (.obj inner) other))
    (hfound : Json.get? segment current = some (.obj inner) ∨
      ((∀ inner, Json.get? segment current ≠ some (.obj inner)) ∧ inner = [] ∧ operation.above = some (some .object)))
    (other : List Text) :
    contentAt (.obj (Json.define current segment (.obj inner'))) other =
      (operation.decidedAt (segment :: second :: rest) other).getD (contentAt (.obj current) other) := by
  cases other with
  | nil => cases operation <;> rfl
  | cons key other =>
      rw [contentAt_obj_cons, contentAt_obj_cons, Json.get?_define, ConfigOperation.decidedAt]
      by_cases hkey : segment = key
      · subst hkey
        rw [if_pos rfl, if_pos rfl, Option.bind_some, hinner]
        rcases hfound with hfound | ⟨hleaf, rfl, habove⟩
        · rw [hfound, Option.bind_some]
        · cases other with
          | nil => rw [ConfigOperation.decidedAt, habove, Option.getD_some, Option.getD_some]
          | cons key' other => rw [contentAt_below_leaf hleaf, contentAt_obj_cons]; rfl
      · rw [if_neg hkey, if_neg hkey]
        rfl

/-- An operation leaves at every path what it decides there, and what was there before where it decides nothing. -/
theorem contentAt_run {operation : ConfigOperation} (hpath : path ≠ []) (h : operation.run path current = .ok next)
    (other : List Text) :
    contentAt (.obj next) other = (operation.decidedAt path other).getD (contentAt (.obj current) other) := by
  induction path generalizing current next other with
  | nil => exact absurd rfl hpath
  | cons segment path ih =>
      cases path with
      | nil =>
          cases operation with
          | set value => exact contentAt_setValue h other
          | delete =>
              obtain rfl := Except.ok.inj h
              exact contentAt_deleteOwn other
      | cons second rest =>
          cases operation with
          | set value =>
              obtain ⟨-, entered, hentered, ⟨rfl, -⟩ | ⟨inner, inner', rfl, hinner, rfl⟩⟩ := updateAt_cons_eq_ok.mp h
              · rcases createParent_eq_ok hentered with ⟨inner, -, heq⟩ | ⟨-, heq⟩ <;> cases heq
              · refine contentAt_define_inner (ih (List.cons_ne_nil _ _) hinner) ?_ other
                rcases createParent_eq_ok hentered with ⟨_, hfound, heq⟩ | ⟨hleaf, heq⟩
                · obtain rfl := Option.some.inj heq
                  exact .inl hfound
                · exact .inr ⟨hleaf, Option.some.inj heq, rfl⟩
          | delete =>
              obtain ⟨-, entered, hentered, ⟨rfl, rfl⟩ | ⟨inner, inner', rfl, hinner, rfl⟩⟩ := updateAt_cons_eq_ok.mp h
              · rcases existingParent_eq_ok hentered with ⟨inner, -, heq⟩ | ⟨hleaf, -⟩
                · cases heq
                · cases hdecided : ConfigOperation.delete.decidedAt (segment :: second :: rest) other with
                  | none => rfl
                  | some content =>
                      obtain ⟨rfl, below, rfl⟩ := ConfigOperation.decidedAt_delete hdecided
                      exact (contentAt_obj_cons _ _).trans (contentAt_below_leaf hleaf _ _)
              · refine contentAt_define_inner (ih (List.cons_ne_nil _ _) hinner) ?_ other
                rcases existingParent_eq_ok hentered with ⟨_, hfound, heq⟩ | ⟨-, heq⟩
                · obtain rfl := Option.some.inj heq
                  exact .inl hfound
                · cases heq

/-- A walk along a path without reserved keys reaches any object. -/
theorem updateAt_succeeds {enter : Option Value → Except CodedFailure (Option Members)}
    {change : Members → Text → Except CodedFailure Members} (henter : ∀ found, Succeeds (enter found))
    (hchange : ∀ current, ∀ key ∈ path, Succeeds (change current key)) (hsafe : ∀ segment ∈ path, segment ∉ reservedKeys)
    (current : Members) : Succeeds (updateAt enter change path current) := by
  induction path generalizing current with
  | nil => exact ⟨current, rfl⟩
  | cons segment path ih =>
      cases path with
      | nil => exact hchange current segment (List.mem_singleton_self _)
      | cons second rest =>
          obtain ⟨entered, hentered⟩ := henter (Json.get? segment current)
          have hsegment : segment ∉ reservedKeys := hsafe segment List.mem_cons_self
          cases entered with
          | none => exact ⟨current, updateAt_cons_eq_ok.mpr ⟨hsegment, none, hentered, .inl ⟨rfl, rfl⟩⟩⟩
          | some inner =>
              obtain ⟨inner', hinner⟩ := ih (fun current key hkey => hchange current key (List.mem_cons_of_mem _ hkey))
                (fun key hkey => hsafe key (List.mem_cons_of_mem _ hkey)) inner
              exact ⟨Json.define current segment (.obj inner'), updateAt_cons_eq_ok.mpr ⟨hsegment, some inner, hentered,
                .inr ⟨inner, inner', rfl, hinner, rfl⟩⟩⟩

theorem ConfigOperation.run_succeeds (operation : ConfigOperation) (hsafe : ∀ segment ∈ path, segment ∉ reservedKeys)
    (current : Members) : Succeeds (operation.run path current) := by
  cases operation with
  | set value =>
      refine updateAt_succeeds (fun found => ?_) (fun current key hkey => ?_) hsafe current
      · unfold createParent
        split
        · exact ⟨_, rfl⟩
        · exact ⟨_, rfl⟩
      · exact ⟨_, setOwnJsonValue_eq_ok.mpr ⟨hsafe key hkey, rfl⟩⟩
  | delete =>
      refine updateAt_succeeds (fun found => ?_) (fun current key _ => ⟨_, rfl⟩) hsafe current
      unfold existingParent
      split
      · exact ⟨_, rfl⟩
      · exact ⟨_, rfl⟩

/-- An update with a path, and no reserved key in it. -/
def ConfigUpdate.Admissible (update : ConfigUpdate) : Prop :=
  update.path ≠ [] ∧ ∀ segment ∈ update.path, segment ∉ reservedKeys

theorem applyConfigUpdate_eq_ok {update : ConfigUpdate} :
    applyConfigUpdate current update = .ok next ↔
      update.Admissible ∧ update.operation.run update.path current = .ok next := by
  unfold applyConfigUpdate
  rw [check_bind_eq_ok, check_bind_eq_ok, require_eq_ok, assertSafeJsonMutationPath_eq_ok, ← and_assoc]
  exact Iff.rfl

/-- What a list of updates leaves at a path whatever was there: what the last update that decides it leaves. -/
def decidedBy : List ConfigUpdate → List Text → Option (Option Content)
  | [], _ => none
  | update :: updates, other => (decidedBy updates other).or (update.operation.decidedAt update.path other)

theorem foldlM_applyConfigUpdate {updates : List ConfigUpdate} (h : updates.foldlM applyConfigUpdate current = .ok next) :
    (∀ update ∈ updates, update.Admissible) ∧
      ∀ other, contentAt (.obj next) other = (decidedBy updates other).getD (contentAt (.obj current) other) := by
  induction updates generalizing current with
  | nil =>
      cases h
      exact ⟨nofun, fun _ => rfl⟩
  | cons update updates ih =>
      rw [List.foldlM_cons] at h
      obtain ⟨middle, hupdate, h⟩ := bind_eq_ok.mp h
      obtain ⟨hadmissible, hrun⟩ := applyConfigUpdate_eq_ok.mp hupdate
      obtain ⟨hrest, hcontent⟩ := ih h
      refine ⟨List.forall_mem_cons.mpr ⟨hadmissible, hrest⟩, fun other => ?_⟩
      rw [hcontent, contentAt_run hadmissible.1 hrun, decidedBy, Option.getD_or]

theorem foldlM_applyConfigUpdate_succeeds {updates : List ConfigUpdate} (h : ∀ update ∈ updates, update.Admissible)
    (current : Members) : Succeeds (updates.foldlM applyConfigUpdate current) := by
  induction updates generalizing current with
  | nil => exact ⟨current, rfl⟩
  | cons update updates ih =>
      rw [List.forall_mem_cons] at h
      obtain ⟨middle, hrun⟩ := update.operation.run_succeeds h.1.2 current
      obtain ⟨next, hnext⟩ := ih h.2 middle
      exact ⟨next, bind_eq_ok.mpr ⟨middle, applyConfigUpdate_eq_ok.mpr ⟨h.1, hrun⟩, hnext⟩⟩

end SecPlatform.Upgrade
