import SecPlatform.Contracts.Theorems
import SecPlatform.Contracts.Lemmas.Canonical
import SecPlatform.DurableExecution.Contract

/-!
# Records read back

The schemas accept a typed record exactly when its numbers and its requirement id are admissible, and they
return it unchanged. A sealed record is read back from its text, and so is a journal of sealed records.
-/

namespace SecPlatform.DurableExecution

open Contracts

/-! ## Admissible records -/

def RecordBody.Admissible : RecordBody → Prop
  | .intent f => (1 ≤ f.deadlineAtUnixMs ∧ f.deadlineAtUnixMs < 2 ^ 53) ∧
      (1 ≤ f.maximumRecords ∧ f.maximumRecords < 2 ^ 53) ∧ (1 ≤ f.maximumStateBytes ∧ f.maximumStateBytes < 2 ^ 53) ∧
      (1 ≤ f.maximumAttempts ∧ f.maximumAttempts < 2 ^ 53) ∧ f.maximumProviderSettlementsPerAttempt < 2 ^ 53
  | .attemptStart f => 1 ≤ f.deadlineAtUnixMs ∧ f.deadlineAtUnixMs < 2 ^ 53
  | .providerSettlement f => isId f.requirementId ∧ f.requirementId.length ≤ 128
  | .domainReadback _ | .lostHandle _ | .attemptResolution _ => True

structure UnsignedRecord.Admissible (record : UnsignedRecord) : Prop where
  sequence : record.base.sequence < 2 ^ 53
  body : record.body.Admissible

instance : (body : RecordBody) → Decidable body.Admissible
  | .intent _ | .attemptStart _ | .providerSettlement _ => inferInstanceAs (Decidable (_ ∧ _))
  | .domainReadback _ | .lostHandle _ | .attemptResolution _ => isTrue trivial

/-! ## Schemas of single values -/

theorem safeIntegerSchema_natValue {least n : Nat} :
    safeIntegerSchema least (natValue n) = if least ≤ n ∧ n < 2 ^ 53 then some n else none := by
  simp [safeIntegerSchema, natValue, JsNumber.toNat?_ofNat, Option.filter]

@[simp] theorem digestSchema_digestValue (d : Digest) : digestSchema (digestValue d) = some d := by
  simp [digestSchema, digestValue, d.2]

@[simp] theorem nullableDigestSchema_nullableDigestValue (d : Option Digest) :
    nullableDigestSchema (nullableDigestValue d) = some d := by
  cases d with
  | none => rfl
  | some d => exact congrArg (Option.map some) (digestSchema_digestValue d)

@[simp] theorem resolutionKindSchema_text (kind : AttemptResolutionKind) :
    resolutionKindSchema (.str kind.text) = some kind := by
  cases kind <;> rfl

@[simp] theorem digestArraySchema_map (ds : List Digest) :
    digestArraySchema (.arr (ds.map digestValue)) = some ds := by
  induction ds with
  | nil => rfl
  | cons d ds ih =>
      simp only [digestArraySchema] at ih ⊢
      simp only [List.map_cons, List.mapM_cons, digestSchema_digestValue, ih, Option.bind_eq_bind, Option.bind_some]
      rfl

theorem requirementIdSchema_str {t : Text} :
    requirementIdSchema (.str t) = if isId t ∧ t.length ≤ 128 then some t else none := rfl

theorem ite_bind {α β : Type} {p : Prop} [Decidable p] {a : α} {f : α → Option β} :
    (if p then some a else none).bind f = if p then f a else none := by split <;> rfl

/-! ## Schemas of records -/

section Shape

variable {members members' : List (Text × Value)}

theorem field_eq {α : Type} {key : Text} {schema : Value → Option α} {v : Value}
    (h : Json.get? key members = some v) : field members key schema = schema v := by
  rw [field, h, Option.bind_some]

/-- A schema sees the members of an object only through their keys. -/
theorem recordShape_congr {extra : List Text} (hget : ∀ k, Json.get? k members = Json.get? k members')
    (hkeys : ∀ p : Text → Bool, members.all (fun m => p m.1) = members'.all fun m => p m.1) :
    recordShape extra members = recordShape extra members' := by
  have hfield {α : Type} (key : Text) (schema : Value → Option α) :
      field members key schema = field members' key schema := by rw [field, field, hget]
  have hbase : baseShape members = baseShape members' := by simp only [baseShape, hfield]
  have hbody : bodyShape members = bodyShape members' := by
    simp only [bodyShape, hget, intentShape, attemptStartShape, providerSettlementShape, domainReadbackShape,
      lostHandleShape, attemptResolutionShape, hfield]
  unfold recordShape
  rw [hbase, hbody]
  congr 1; funext base; congr 1; funext body
  simp only [hkeys fun k => k ∈ (UnsignedRecord.members ⟨base, body⟩).map Prod.fst ++ extra]

end Shape

section Members

variable (base : RecordBase) (tail : List (Text × Value))

theorem baseShape_members (record : UnsignedRecord) :
    baseShape (record.members ++ tail) = if record.base.sequence < 2 ^ 53 then some record.base else none := by
  unfold baseShape
  rw [field_eq (show Json.get? "schema" _ = some (.str durableLocalExecutionRecordSchema) from rfl),
    field_eq (show Json.get? "sequence" _ = some (natValue record.base.sequence) from rfl),
    field_eq (show Json.get? "operationKeyDigest" _ = some (digestValue record.base.operationKeyDigest) from rfl),
    field_eq (show Json.get? "previousRecordDigest" _ = some (nullableDigestValue record.base.previousRecordDigest)
      from rfl), safeIntegerSchema_natValue, digestSchema_digestValue, nullableDigestSchema_nullableDigestValue]
  simp only [literalSchema, if_true, Option.bind_eq_bind, Option.bind_some, Nat.zero_le, true_and]
  split <;> rfl

theorem intentShape_members (f : IntentFields) :
    intentShape ((⟨base, .intent f⟩ : UnsignedRecord).members ++ tail) =
      if (RecordBody.intent f).Admissible then some f else none := by
  unfold intentShape
  rw [field_eq (show Json.get? "intentReferenceDigest" _ = some (digestValue f.intentReferenceDigest) from rfl),
    field_eq (show Json.get? "executionPlanReferenceDigest" _ = some (digestValue f.executionPlanReferenceDigest)
      from rfl),
    field_eq (show Json.get? "deadlineAtUnixMs" _ = some (natValue f.deadlineAtUnixMs) from rfl),
    field_eq (show Json.get? "maximumRecords" _ = some (natValue f.maximumRecords) from rfl),
    field_eq (show Json.get? "maximumStateBytes" _ = some (natValue f.maximumStateBytes) from rfl),
    field_eq (show Json.get? "maximumAttempts" _ = some (natValue f.maximumAttempts) from rfl),
    field_eq (show Json.get? "maximumProviderSettlementsPerAttempt" _ =
      some (natValue f.maximumProviderSettlementsPerAttempt) from rfl)]
  simp only [digestSchema_digestValue, safeIntegerSchema_natValue, Option.bind_eq_bind, Option.bind_some,
    ite_bind, Nat.zero_le, true_and, ← ite_and]
  exact if_congr (by simp only [RecordBody.Admissible, and_assoc]) rfl rfl

theorem attemptStartShape_members (f : AttemptStartFields) :
    attemptStartShape ((⟨base, .attemptStart f⟩ : UnsignedRecord).members ++ tail) =
      if (RecordBody.attemptStart f).Admissible then some f else none := by
  unfold attemptStartShape
  rw [field_eq (show Json.get? "runIdDigest" _ = some (nullableDigestValue f.runIdDigest) from rfl),
    field_eq (show Json.get? "resumeEpochDigest" _ = some (nullableDigestValue f.resumeEpochDigest) from rfl),
    field_eq (show Json.get? "attemptNonceDigest" _ = some (digestValue f.attemptNonceDigest) from rfl),
    field_eq (show Json.get? "boundAttemptDigest" _ = some (digestValue f.boundAttemptDigest) from rfl),
    field_eq (show Json.get? "workerIdentityDigest" _ = some (digestValue f.workerIdentityDigest) from rfl),
    field_eq (show Json.get? "authorityGrantReferenceDigest" _ = some (digestValue f.authorityGrantReferenceDigest)
      from rfl),
    field_eq (show Json.get? "providerBindingSetReferenceDigest" _ =
      some (digestValue f.providerBindingSetReferenceDigest) from rfl),
    field_eq (show Json.get? "executionPlanReferenceDigest" _ = some (digestValue f.executionPlanReferenceDigest)
      from rfl),
    field_eq (show Json.get? "deadlineAtUnixMs" _ = some (natValue f.deadlineAtUnixMs) from rfl),
    field_eq (show Json.get? "retryAdmissionReferenceDigest" _ =
      some (nullableDigestValue f.retryAdmissionReferenceDigest) from rfl)]
  simp only [digestSchema_digestValue, nullableDigestSchema_nullableDigestValue, safeIntegerSchema_natValue,
    Option.bind_eq_bind, Option.bind_some, ite_bind]
  rfl

theorem providerSettlementShape_members (f : ProviderSettlementFields) :
    providerSettlementShape ((⟨base, .providerSettlement f⟩ : UnsignedRecord).members ++ tail) =
      if (RecordBody.providerSettlement f).Admissible then some f else none := by
  unfold providerSettlementShape
  rw [field_eq (show Json.get? "attemptNonceDigest" _ = some (digestValue f.attemptNonceDigest) from rfl),
    field_eq (show Json.get? "requirementId" _ = some (.str f.requirementId) from rfl),
    field_eq (show Json.get? "providerBindingDigest" _ = some (digestValue f.providerBindingDigest) from rfl),
    field_eq (show Json.get? "providerReceiptDigest" _ = some (digestValue f.providerReceiptDigest) from rfl)]
  simp only [digestSchema_digestValue, requirementIdSchema_str, Option.bind_eq_bind, Option.bind_some, ite_bind]
  rfl

theorem domainReadbackShape_members (f : DomainReadbackFields) :
    domainReadbackShape ((⟨base, .domainReadback f⟩ : UnsignedRecord).members ++ tail) = some f := by
  unfold domainReadbackShape
  rw [field_eq (show Json.get? "attemptNonceDigest" _ = some (digestValue f.attemptNonceDigest) from rfl),
    field_eq (show Json.get? "readbackContractDigest" _ = some (digestValue f.readbackContractDigest) from rfl),
    field_eq (show Json.get? "domainReadbackReceiptDigest" _ = some (digestValue f.domainReadbackReceiptDigest)
      from rfl)]
  simp only [digestSchema_digestValue, Option.bind_eq_bind, Option.bind_some]
  rfl

theorem lostHandleShape_members (f : LostHandleFields) :
    lostHandleShape ((⟨base, .lostHandle f⟩ : UnsignedRecord).members ++ tail) = some f := by
  unfold lostHandleShape
  rw [field_eq (show Json.get? "attemptNonceDigest" _ = some (digestValue f.attemptNonceDigest) from rfl),
    field_eq (show Json.get? "lostHandleReferenceDigest" _ = some (digestValue f.lostHandleReferenceDigest) from rfl)]
  simp only [digestSchema_digestValue, Option.bind_eq_bind, Option.bind_some]
  rfl

theorem attemptResolutionShape_members (f : AttemptResolutionFields) :
    attemptResolutionShape ((⟨base, .attemptResolution f⟩ : UnsignedRecord).members ++ tail) = some f := by
  unfold attemptResolutionShape
  rw [field_eq (show Json.get? "attemptNonceDigest" _ = some (digestValue f.attemptNonceDigest) from rfl),
    field_eq (show Json.get? "resolutionKind" _ = some (.str f.resolutionKind.text) from rfl),
    field_eq (show Json.get? "resolutionReferenceDigest" _ = some (digestValue f.resolutionReferenceDigest) from rfl),
    field_eq (show Json.get? "providerSettlementRecordDigests" _ =
      some (.arr (f.providerSettlementRecordDigests.map digestValue)) from rfl),
    field_eq (show Json.get? "domainReadbackRecordDigest" _ = some (nullableDigestValue f.domainReadbackRecordDigest)
      from rfl)]
  simp only [digestSchema_digestValue, resolutionKindSchema_text, digestArraySchema_map,
    nullableDigestSchema_nullableDigestValue, Option.bind_eq_bind, Option.bind_some]
  rfl

/-- The union picks the schema of the record's own kind. -/
theorem bodyShape_members (record : UnsignedRecord) :
    bodyShape (record.members ++ tail) = if record.body.Admissible then some record.body else none := by
  have hkind : Json.get? "kind" (record.members ++ tail) = some (.str record.body.kind) := rfl
  unfold bodyShape
  rw [hkind]
  obtain ⟨base, body⟩ := record
  cases body with
  | intent f =>
      exact (congrArg (Option.map RecordBody.intent) (intentShape_members base tail f)).trans (by split <;> rfl)
  | attemptStart f =>
      exact (congrArg (Option.map RecordBody.attemptStart) (attemptStartShape_members base tail f)).trans
        (by split <;> rfl)
  | providerSettlement f =>
      exact (congrArg (Option.map RecordBody.providerSettlement) (providerSettlementShape_members base tail f)).trans
        (by split <;> rfl)
  | domainReadback f =>
      exact congrArg (Option.map RecordBody.domainReadback) (domainReadbackShape_members base tail f)
  | lostHandle f => exact congrArg (Option.map RecordBody.lostHandle) (lostHandleShape_members base tail f)
  | attemptResolution f =>
      exact congrArg (Option.map RecordBody.attemptResolution) (attemptResolutionShape_members base tail f)

end Members

/-! ## Canonical records -/

theorem canonical_digestValue (d : Digest) : canonical (digestValue d) = digestValue d := rfl

theorem canonical_nullableDigestValue (d : Option Digest) :
    canonical (nullableDigestValue d) = nullableDigestValue d := by
  cases d <;> rfl

theorem canonical_natValue (n : Nat) : canonical (natValue n) = natValue n := by
  rw [natValue, canonical, if_neg (JsNumber.ofNat_ne_negZero n)]

theorem canonicalItems_digests (ds : List Digest) :
    canonicalItems (ds.map digestValue) = ds.map digestValue := by
  induction ds with
  | nil => rfl
  | cons d ds ih => simp only [List.map_cons, canonicalItems, canonical_digestValue, ih]

/-- The members of a record have canonical values. -/
theorem canonicalMembers_members (record : DurableRecord) : canonicalMembers record.members = record.members := by
  obtain ⟨⟨base, body⟩, recordDigest⟩ := record
  cases body <;>
    simp only [DurableRecord.members, UnsignedRecord.members, RecordBody.members, List.cons_append, List.nil_append,
      canonicalMembers, canonical_digestValue, canonical_nullableDigestValue, canonical_natValue, canonical,
      canonicalItems_digests]

theorem isFiniteItems_digests (ds : List Digest) : isFiniteItems (ds.map digestValue) := by
  induction ds with
  | nil => rfl
  | cons d ds ih => simpa [isFiniteItems, digestValue, isFinite] using ih

theorem isFinite_nullableDigestValue (d : Option Digest) : isFinite (nullableDigestValue d) := by
  cases d <;> rfl

theorem isFinite_record (record : DurableRecord) : isFinite record.toValue := by
  have hnat (n : Nat) : isFinite (natValue n) := JsNumber.isFinite_ofNat n
  have hdigest (d : Digest) : isFinite (digestValue d) := rfl
  obtain ⟨⟨base, body⟩, recordDigest⟩ := record
  cases body <;>
    simp [DurableRecord.toValue, DurableRecord.members, UnsignedRecord.members, RecordBody.members, isFinite,
      isFiniteMembers, hnat, hdigest, isFinite_nullableDigestValue, isFiniteItems_digests]

/-- No record has a key twice. -/
theorem nodup_members (record : DurableRecord) : (record.members.map Prod.fst).Nodup := by
  obtain ⟨⟨base, body⟩, recordDigest⟩ := record
  have hkeys : (⟨⟨base, body⟩, recordDigest⟩ : DurableRecord).members.map Prod.fst =
      Text.ofString "schema" :: Text.ofString "sequence" :: Text.ofString "operationKeyDigest" ::
        Text.ofString "previousRecordDigest" :: Text.ofString "kind" ::
        (body.members.map Prod.fst ++ [Text.ofString "recordDigest"]) := by
    simp [DurableRecord.members, UnsignedRecord.members]
  rw [hkeys]
  cases body <;>
    (simp only [RecordBody.members, List.map_cons, List.map_nil, List.cons_append, List.nil_append]; decide)

theorem uniqueKeys_record (record : DurableRecord) : record.toValue.UniqueKeys := by
  have hdigest (d : Digest) : (digestValue d).UniqueKeys := trivial
  have hnat (n : Nat) : (natValue n).UniqueKeys := trivial
  have hnull (d : Option Digest) : (nullableDigestValue d).UniqueKeys := by cases d <;> trivial
  have hitems (ds : List Digest) : Json.UniqueKeysItems (ds.map digestValue) := by
    induction ds with
    | nil => trivial
    | cons d ds ih => exact ⟨trivial, ih⟩
  refine ⟨nodup_members record, ?_⟩
  obtain ⟨⟨base, body⟩, recordDigest⟩ := record
  cases body <;>
    simp [DurableRecord.members, UnsignedRecord.members, RecordBody.members, Json.UniqueKeysMembers, hdigest, hnat,
      hnull, hitems, Json.UniqueKeys]

theorem canonical_record (record : DurableRecord) :
    canonical record.toValue = .obj (canonicalOrder record.members) := by
  rw [DurableRecord.toValue, canonical, canonicalMembers_members]

/-! ## Schemas of whole records -/

theorem recordShape_members (record : UnsignedRecord) (extra : List Text) (tail : List (Text × Value))
    (htail : tail.map Prod.fst = extra) :
    recordShape extra (record.members ++ tail) =
      if record.base.sequence < 2 ^ 53 ∧ record.body.Admissible then some record else none := by
  have hall : ((record.members ++ tail).all fun m => m.1 ∈ record.members.map Prod.fst ++ extra) = true := by
    rw [List.all_eq_true]
    intro m hm
    rw [decide_eq_true_eq, ← htail, ← List.map_append]
    exact List.mem_map_of_mem hm
  unfold recordShape
  rw [baseShape_members, bodyShape_members, Option.bind_eq_bind, ite_bind, ite_and]
  refine if_congr Iff.rfl ?_ rfl
  rw [Option.bind_eq_bind, ite_bind]
  exact if_congr Iff.rfl (if_pos hall) rfl

theorem durableExecutionUnsignedRecordSchema_ok {record record' : UnsignedRecord} :
    durableExecutionUnsignedRecordSchema record.toValue = some record' ↔ record' = record ∧ record.Admissible := by
  have hshape := recordShape_members record [] [] rfl
  rw [List.append_nil] at hshape
  rw [UnsignedRecord.toValue, durableExecutionUnsignedRecordSchema, hshape]
  constructor
  · intro h
    split at h
    · rename_i ha
      exact ⟨(Option.some.inj h).symm, ha.1, ha.2⟩
    · cases h
  · rintro ⟨rfl, hs, hb⟩
    exact if_pos ⟨hs, hb⟩

theorem durableExecutionRecordSchema_canonical {record record' : DurableRecord} :
    durableExecutionRecordSchema (canonical record.toValue) = some record' ↔
      record' = record ∧ record.toUnsignedRecord.Admissible := by
  have hperm : (canonicalOrder record.members).Perm record.members := canonicalOrder_perm _
  have hnodup : ((canonicalOrder record.members).map Prod.fst).Nodup := (hperm.map _).nodup_iff.mpr (nodup_members record)
  have hget (k : Text) : Json.get? k (canonicalOrder record.members) = Json.get? k record.members :=
    Json.get?_perm hperm hnodup k
  have hkeys (p : Text → Bool) : (canonicalOrder record.members).all (fun m => p m.1) =
      record.members.all fun m => p m.1 := by
    rw [Bool.eq_iff_iff, List.all_eq_true, List.all_eq_true]
    exact forall_congr' fun m => by rw [hperm.mem_iff]
  have hdigest : field (canonicalOrder record.members) "recordDigest" digestSchema = some record.recordDigest := by
    have hlast : Json.get? "recordDigest" record.members = some (digestValue record.recordDigest) :=
      Json.get?_of_mem (nodup_members record) (by simp [DurableRecord.members])
    rw [field_eq ((hget _).trans hlast), digestSchema_digestValue]
  have hshape : recordShape ["recordDigest"] record.members =
      if record.base.sequence < 2 ^ 53 ∧ record.body.Admissible then some record.toUnsignedRecord else none :=
    recordShape_members _ _ [(Text.ofString "recordDigest", digestValue record.recordDigest)] rfl
  rw [canonical_record, durableExecutionRecordSchema, recordShape_congr hget hkeys, hdigest, hshape,
    Option.bind_eq_bind, ite_bind]
  constructor
  · intro h
    split at h
    · rename_i ha
      exact ⟨(Option.some.inj h).symm, ha.1, ha.2⟩
    · cases h
  · rintro ⟨rfl, hs, hb⟩
    exact if_pos ⟨hs, hb⟩

/-! ## Sealed records -/

theorem readExactJson_encode (record : DurableRecord) (label : Text) :
    readExactJson (encodeDurableExecutionRecord record) label = .ok (canonical record.toValue) := by
  obtain ⟨result, hresult, hvalue, hsucceeds⟩ :=
    parseExactJson_eq (ν := JsNumber) (encodeDurableExecutionRecord record) label none none rfl
  have hfinite := isFinite_record record
  obtain ⟨v, rfl⟩ := hsucceeds.mpr ⟨_, document_canonicalEncoding hfinite,
    admitted_zero_iff.mpr ⟨uniqueKeys_canonical _ (uniqueKeys_record record), by simp⟩⟩
  have hv := hvalue v rfl
  rw [encodeDurableExecutionRecord, parse_canonicalEncoding hfinite (uniqueKeys_record record)] at hv
  obtain rfl := Option.some.inj hv
  simp only [readExactJson, hresult, Option.get_some]
  rfl

section Records

variable [Sha256] {record : DurableRecord} {source : Text}

theorem sealDurableExecutionRecordForInternalWriter_ok {value : UnsignedRecord} :
    sealDurableExecutionRecordForInternalWriter value = .ok record ↔ value.Admissible ∧
      record = ⟨value, recordDigestOf value⟩ ∧
      (encodeDurableExecutionRecord record).utf8Length ≤ durableExecutionMaximumRecordBytes := by
  unfold sealDurableExecutionRecordForInternalWriter
  constructor
  · intro h
    split at h
    · cases h
    · rename_i value' hschema
      obtain ⟨rfl, ha⟩ := durableExecutionUnsignedRecordSchema_ok.mp hschema
      dsimp only at h
      split at h
      · cases h
      · rename_i hsize
        cases h
        exact ⟨ha, rfl, not_lt.mp hsize⟩
  · rintro ⟨ha, rfl, hsize⟩
    rw [durableExecutionUnsignedRecordSchema_ok.mpr ⟨rfl, ha⟩]
    exact if_neg (not_lt.mpr hsize)

/-- A record as the writer seals it. -/
def WellSealed (record : DurableRecord) : Prop :=
  sealDurableExecutionRecordForInternalWriter record.toUnsignedRecord = .ok record

theorem wellSealed_iff : WellSealed record ↔ record.toUnsignedRecord.Admissible ∧
    record.recordDigest = recordDigestOf record.toUnsignedRecord ∧
    (encodeDurableExecutionRecord record).utf8Length ≤ durableExecutionMaximumRecordBytes := by
  rw [WellSealed, sealDurableExecutionRecordForInternalWriter_ok]
  refine and_congr_right fun _ => and_congr_left fun _ => ?_
  obtain ⟨unsigned, recordDigest⟩ := record
  simp

theorem wellSealed_of_seal {value : UnsignedRecord}
    (h : sealDurableExecutionRecordForInternalWriter value = .ok record) :
    WellSealed record ∧ record.toUnsignedRecord = value := by
  obtain ⟨ha, rfl, hsize⟩ := sealDurableExecutionRecordForInternalWriter_ok.mp h
  exact ⟨wellSealed_iff.mpr ⟨ha, rfl, hsize⟩, rfl⟩

/-- The reader accepts exactly the texts of sealed records. -/
theorem parseDurableExecutionRecord_ok :
    parseDurableExecutionRecord source = .ok record ↔
      source = encodeDurableExecutionRecord record ∧ WellSealed record := by
  rw [wellSealed_iff]
  constructor
  · intro h
    unfold parseDurableExecutionRecord at h
    obtain ⟨parsed, hparsed, h⟩ := bind_eq_ok.mp h
    split at h
    · cases h
    · rename_i record' hschema
      split at h
      · cases h
      rename_i hsize
      split at h
      · cases h
      rename_i hdigest
      split at h
      · cases h
      rename_i htext
      cases h
      rw [not_not] at hdigest htext
      subst htext
      rw [readExactJson_encode, Except.ok.injEq] at hparsed
      subst hparsed
      exact ⟨rfl, (durableExecutionRecordSchema_canonical.mp hschema).2, hdigest, not_lt.mp hsize⟩
  · rintro ⟨rfl, ha, hdigest, hsize⟩
    unfold parseDurableExecutionRecord
    rw [readExactJson_encode, ok_bind, durableExecutionRecordSchema_canonical.mpr ⟨rfl, ha⟩]
    simp only [if_neg (not_lt.mpr hsize), if_neg (not_not.mpr hdigest), ne_eq, not_true_eq_false, if_false]

end Records

end SecPlatform.DurableExecution
