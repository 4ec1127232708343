import SecPlatform.DurableExecution.Lemmas.RecordCodec
import SecPlatform.Library.Lemmas.JsonObject

/-!
# The size of a record

A record is ASCII text, and one that references at most 32 provider settlements fits the byte ceiling.
-/

namespace SecPlatform.DurableExecution

open Contracts Json

/-! ## Values -/

theorem isPlain_lowerAlphanumeric {c : CodeUnit} (h : isLowerAlphanumeric c) : IsPlain c := by
  simp only [isLowerAlphanumeric, Bool.or_eq_true, Bool.and_eq_true, decide_eq_true_eq, Fin.le_def] at h
  have h0 : (unit '0').val = 0x30 := rfl
  have h9 : (unit '9').val = 0x39 := rfl
  have ha : (unit 'a').val = 0x61 := rfl
  have hz : (unit 'z').val = 0x7A := rfl
  unfold IsPlain
  omega

theorem plain_hex {s : Text} (h : s.all isHexDigit) : Plain s := by
  intro c hc
  have hhex := List.all_eq_true.mp h c hc
  simp only [isHexDigit, Bool.or_eq_true, Bool.and_eq_true, decide_eq_true_eq] at hhex
  apply isPlain_lowerAlphanumeric
  simp only [isLowerAlphanumeric, Bool.or_eq_true, Bool.and_eq_true, decide_eq_true_eq]
  rcases hhex with hhex | hhex
  · exact .inr hhex
  · exact .inl ⟨hhex.1, hhex.2.trans (by decide)⟩

theorem digest_eq (d : Digest) : ∃ hex : Text, d.val = Text.ofString "sha256:" ++ hex ∧ Plain hex ∧ hex.length = 64 := by
  obtain ⟨value, h⟩ := d
  simp only [isDigest, isDigestHex, Bool.and_eq_true, decide_eq_true_eq] at h
  obtain ⟨⟨hex, rfl⟩, hlen, hall⟩ := h
  have hdrop : (Text.ofString "sha256:" ++ hex).drop 7 = hex := rfl
  rw [hdrop] at hlen hall
  exact ⟨hex, rfl, plain_hex hall, hlen⟩

theorem plain_digest (d : Digest) : Plain d.val := by
  obtain ⟨hex, hd, hplain, _⟩ := digest_eq d
  rw [hd]
  intro c hc
  rcases List.mem_append.mp hc with hc | hc
  · exact (show Plain (Text.ofString "sha256:") by decide) c hc
  · exact hplain c hc

theorem length_digest (d : Digest) : d.val.length = 71 := by
  obtain ⟨hex, hd, _, hlen⟩ := digest_eq d
  rw [hd, List.length_append, hlen]
  rfl

theorem length_render_digestValue (d : Digest) : (render (digestValue d)).length = 73 := by
  rw [digestValue, render, (plain_digest d).length_quoted, length_digest]

theorem length_render_nullableDigestValue (d : Option Digest) : (render (nullableDigestValue d)).length ≤ 73 := by
  cases d with
  | none => exact (by decide : (4 : Nat) ≤ 73)
  | some d => exact (length_render_digestValue d).le

theorem length_render_natValue {n : Nat} (h : n < 2 ^ 53) : (render (natValue n)).length ≤ 16 :=
  length_renderNumber_ofNat (by decide) (by decide) (lt_of_lt_of_le h (by decide))

theorem length_render_digests (ds : List Digest) : (render (.arr (ds.map digestValue) : Value)).length ≤ 74 * ds.length + 2 := by
  have hitems := length_renderItems (ds.map digestValue)
  have hsum : ((ds.map digestValue).map fun v => (render v).length + 1).sum = 74 * ds.length := by
    rw [List.map_map]
    simp [Function.comp_def, length_render_digestValue, mul_comm]
  rw [hsum] at hitems
  simp only [render, List.length_cons, List.length_append, List.length_nil]
  omega

theorem plain_idRest {s : Text} {inside seen : Bool} (h : isIdRest inside seen s) : Plain s := by
  induction s generalizing inside seen with
  | nil => simp [Plain]
  | cons c cs ih =>
      unfold isIdRest at h
      split at h
      · rename_i hc
        exact List.forall_mem_cons.mpr ⟨isPlain_lowerAlphanumeric hc, ih h⟩
      · simp only [Bool.and_eq_true, Bool.or_eq_true, decide_eq_true_eq] at h
        refine List.forall_mem_cons.mpr ⟨?_, ih h.2⟩
        rcases h.1.1 with rfl | rfl <;> decide

theorem plain_id {s : Text} (h : isId s) : Plain s := by
  cases s with
  | nil => simp [Plain]
  | cons c cs =>
      simp only [isId, Bool.and_eq_true] at h
      refine List.forall_mem_cons.mpr ⟨isPlain_lowerAlphanumeric ?_, plain_idRest h.2⟩
      simp only [isLowerAlphanumeric, Bool.or_eq_true, Bool.and_eq_true]
      exact .inl h.1

/-! ## Records -/

/-- The number of settlement references in a record. -/
def RecordBody.settlementReferences : RecordBody → Nat
  | .attemptResolution f => f.providerSettlementRecordDigests.length
  | .intent _ | .attemptStart _ | .providerSettlement _ | .domainReadback _ | .lostHandle _ => 0

theorem plain_of_all (ks : List Text) {n : Nat} (h : (ks.all fun k => Plain k ∧ (quoted k).length ≤ n) = true) :
    ∀ k ∈ ks, Plain k ∧ (quoted k).length ≤ n :=
  fun k hk => of_decide_eq_true (List.all_eq_true.mp h k hk)

theorem plain_keys (record : DurableRecord) :
    ∀ k ∈ record.members.map Prod.fst, Plain k ∧ (quoted k).length ≤ 38 := by
  apply plain_of_all
  obtain ⟨⟨base, body⟩, recordDigest⟩ := record
  have hkeys : (⟨⟨base, body⟩, recordDigest⟩ : DurableRecord).members.map Prod.fst =
      Text.ofString "schema" :: Text.ofString "sequence" :: Text.ofString "operationKeyDigest" ::
        Text.ofString "previousRecordDigest" :: Text.ofString "kind" ::
        (body.members.map Prod.fst ++ [Text.ofString "recordDigest"]) := by
    simp [DurableRecord.members, UnsignedRecord.members]
  rw [hkeys]
  cases body <;>
    (simp only [RecordBody.members, List.map_cons, List.map_nil, List.cons_append, List.nil_append]; decide)

theorem plain_kind (body : RecordBody) : Plain body.kind ∧ (quoted body.kind).length ≤ 31 := by
  apply plain_of_all ["intent", "attempt-start", "provider-settlement-reference", "domain-readback-reference",
    "lost-handle-reference", "attempt-resolution"] (by decide)
  cases body <;> simp [RecordBody.kind]

theorem plain_resolutionKind (kind : AttemptResolutionKind) : Plain kind.text ∧ (quoted kind.text).length ≤ 27 := by
  cases kind <;> decide

theorem length_encode_le_sum (record : DurableRecord) :
    (encodeDurableExecutionRecord record).length ≤ (record.members.map memberSize).sum + 2 := by
  rw [encodeDurableExecutionRecord, canonicalEncoding, canonical_record]
  refine (length_render_obj _).trans (Nat.add_le_add_right (le_of_eq ?_) 2)
  exact ((canonicalOrder_perm record.members).map memberSize).sum_eq

theorem length_encode_le (record : DurableRecord) :
    (encodeDurableExecutionRecord record).length ≤
      40 * record.members.length + (record.members.map fun m => (render m.2).length).sum + 2 := by
  refine (length_encode_le_sum record).trans (Nat.add_le_add_right ?_ 2)
  have hle : (record.members.map memberSize).sum ≤ (record.members.map fun m => 40 + (render m.2).length).sum := by
    apply List.sum_le_sum
    intro m hm
    have := (plain_keys record m.1 (List.mem_map_of_mem hm)).2
    unfold memberSize
    omega
  refine hle.trans (le_of_eq ?_)
  rw [List.sum_map_add, List.map_const', List.sum_replicate, Nat.nsmul_eq_mul, mul_comm]

/-- An admissible record with at most 32 settlement references fits the byte ceiling. -/
theorem length_encode_le_maximum {record : DurableRecord} (h : record.toUnsignedRecord.Admissible)
    (hn : record.body.settlementReferences ≤ 32) :
    (encodeDurableExecutionRecord record).length ≤ durableExecutionMaximumRecordBytes := by
  have hsum := length_encode_le record
  obtain ⟨⟨base, body⟩, recordDigest⟩ := record
  obtain ⟨hs, hb⟩ := h
  have hd (d : Digest) : (render (digestValue d)).length ≤ 73 := (length_render_digestValue d).le
  have hnull := length_render_nullableDigestValue
  have hsequence := length_render_natValue hs
  have hschema : (render (.str durableLocalExecutionRecordSchema : Value)).length ≤ 36 := by decide
  have hkind : (render (.str body.kind : Value)).length ≤ 31 := (plain_kind body).2
  -- bounds for the values of one record, in the order of its members
  have htotal (bounds : List Nat) (hb : List.Forall₂ (· ≤ ·)
      ((DurableRecord.members ⟨⟨base, body⟩, recordDigest⟩).map fun m => (render m.2).length) bounds)
      (hbounds : 40 * bounds.length + bounds.sum + 2 ≤ durableExecutionMaximumRecordBytes) :
      (encodeDurableExecutionRecord ⟨⟨base, body⟩, recordDigest⟩).length ≤ durableExecutionMaximumRecordBytes := by
    have hlen := hb.length_eq
    rw [List.length_map] at hlen
    have := hb.sum_le_sum
    omega
  cases body with
  | intent f =>
      obtain ⟨hdeadline, hrecords, hbytes, hattempts, hsettlements⟩ := hb
      refine htotal [36, 16, 73, 73, 31, 73, 73, 16, 16, 16, 16, 16, 73] ?_ (by decide)
      exact .cons hschema (.cons hsequence (.cons (hd _) (.cons (hnull _) (.cons hkind (.cons (hd _) (.cons (hd _)
        (.cons (length_render_natValue hdeadline.2) (.cons (length_render_natValue hrecords.2)
          (.cons (length_render_natValue hbytes.2) (.cons (length_render_natValue hattempts.2)
            (.cons (length_render_natValue hsettlements) (.cons (hd _) .nil))))))))))))
  | attemptStart f =>
      refine htotal [36, 16, 73, 73, 31, 73, 73, 73, 73, 73, 73, 73, 73, 16, 73, 73] ?_ (by decide)
      exact .cons hschema (.cons hsequence (.cons (hd _) (.cons (hnull _) (.cons hkind (.cons (hnull _)
        (.cons (hnull _) (.cons (hd _) (.cons (hd _) (.cons (hd _) (.cons (hd _) (.cons (hd _) (.cons (hd _)
          (.cons (length_render_natValue hb.2) (.cons (hnull _) (.cons (hd _) .nil)))))))))))))))
  | providerSettlement f =>
      have hid : (render (.str f.requirementId : Value)).length ≤ 130 := by
        rw [render, (plain_id hb.1).length_quoted]
        exact Nat.add_le_add_right hb.2 2
      refine htotal [36, 16, 73, 73, 31, 73, 130, 73, 73, 73] ?_ (by decide)
      exact .cons hschema (.cons hsequence (.cons (hd _) (.cons (hnull _) (.cons hkind (.cons (hd _)
        (.cons hid (.cons (hd _) (.cons (hd _) (.cons (hd _) .nil)))))))))
  | domainReadback f =>
      refine htotal [36, 16, 73, 73, 31, 73, 73, 73, 73] ?_ (by decide)
      exact .cons hschema (.cons hsequence (.cons (hd _) (.cons (hnull _) (.cons hkind (.cons (hd _)
        (.cons (hd _) (.cons (hd _) (.cons (hd _) .nil))))))))
  | lostHandle f =>
      refine htotal [36, 16, 73, 73, 31, 73, 73, 73] ?_ (by decide)
      exact .cons hschema (.cons hsequence (.cons (hd _) (.cons (hnull _) (.cons hkind (.cons (hd _)
        (.cons (hd _) (.cons (hd _) .nil)))))))
  | attemptResolution f =>
      have hresolution : (render (.str f.resolutionKind.text : Value)).length ≤ 27 :=
        (plain_resolutionKind f.resolutionKind).2
      have hrefs := (length_render_digests f.providerSettlementRecordDigests).trans
        (Nat.add_le_add_right (Nat.mul_le_mul_left 74 hn) 2)
      refine htotal [36, 16, 73, 73, 31, 73, 27, 73, 74 * 32 + 2, 73, 73] ?_ (by decide)
      exact .cons hschema (.cons hsequence (.cons (hd _) (.cons (hnull _) (.cons hkind (.cons (hd _)
        (.cons hresolution (.cons (hd _) (.cons hrefs (.cons (hnull _) (.cons (hd _) .nil))))))))))

/-! ## ASCII -/

theorem isAscii_natValue {n : Nat} (h : n < 2 ^ 53) : (render (natValue n)).IsAscii :=
  isAscii_renderNumber_ofNat (lt_of_lt_of_le h (by decide))

theorem isAscii_digestValue (d : Digest) : (render (digestValue d)).IsAscii := (plain_digest d).isAscii_quoted

theorem isAscii_nullableDigestValue (d : Option Digest) : (render (nullableDigestValue d)).IsAscii := by
  cases d with
  | none => 
      have hplain : Plain (Text.ofString "null") := by decide
      exact hplain.isAscii
  | some d => exact isAscii_digestValue d

theorem isAscii_digests (ds : List Digest) : (render (.arr (ds.map digestValue) : Value)).IsAscii := by
  apply isAscii_render_arr
  intro v hv
  obtain ⟨d, _, rfl⟩ := List.mem_map.mp hv
  exact isAscii_digestValue d

theorem isAscii_encode {record : DurableRecord} (h : record.toUnsignedRecord.Admissible) :
    (encodeDurableExecutionRecord record).IsAscii := by
  rw [encodeDurableExecutionRecord, canonicalEncoding, canonical_record]
  apply isAscii_render_obj
  have hvalues : ∀ v ∈ record.members.map Prod.snd, (render v).IsAscii := by
    have hplain {t : Text} (ht : Plain t) : (render (.str t : Value)).IsAscii := ht.isAscii_quoted
    have hschema : (render (.str durableLocalExecutionRecordSchema : Value)).IsAscii := hplain (by decide)
    obtain ⟨⟨base, body⟩, recordDigest⟩ := record
    obtain ⟨hs, hb⟩ := h
    have hkind : (render (.str body.kind : Value)).IsAscii := hplain (plain_kind body).1
    have hbody : ∀ v ∈ body.members.map Prod.snd, (render v).IsAscii := by
      cases body with
      | intent f => 
          obtain ⟨hdeadline, hrecords, hbytes, hattempts, hsettlements⟩ := hb
          simp [RecordBody.members, isAscii_digestValue, isAscii_natValue hdeadline.2, isAscii_natValue hrecords.2,
            isAscii_natValue hbytes.2, isAscii_natValue hattempts.2, isAscii_natValue hsettlements]
      | attemptStart f =>
          simp [RecordBody.members, isAscii_digestValue, isAscii_nullableDigestValue, isAscii_natValue hb.2]
      | providerSettlement f =>
          simp [RecordBody.members, isAscii_digestValue, hplain (plain_id hb.1)]
      | domainReadback f => simp [RecordBody.members, isAscii_digestValue]
      | lostHandle f => simp [RecordBody.members, isAscii_digestValue]
      | attemptResolution f =>
          simp [RecordBody.members, isAscii_digestValue, isAscii_nullableDigestValue, isAscii_digests,
            hplain (plain_resolutionKind f.resolutionKind).1]
    intro v hv
    simp only [DurableRecord.members, UnsignedRecord.members, List.map_append, List.map_cons, List.map_nil,
      List.cons_append, List.mem_cons, List.mem_append, List.not_mem_nil, or_false] at hv
    obtain rfl | rfl | rfl | rfl | rfl | hv | rfl := hv
    · exact hschema
    · exact isAscii_natValue hs
    · exact isAscii_digestValue _
    · exact isAscii_nullableDigestValue _
    · exact hkind
    · exact hbody v hv
    · exact isAscii_digestValue _
  intro m hm
  have hm := (canonicalOrder_perm record.members).mem_iff.mp hm
  exact ⟨(plain_keys record m.1 (List.mem_map_of_mem hm)).1.isAscii_quoted,
    hvalues m.2 (List.mem_map_of_mem hm)⟩

theorem utf8Length_encode {record : DurableRecord} (h : record.toUnsignedRecord.Admissible) :
    (encodeDurableExecutionRecord record).utf8Length = (encodeDurableExecutionRecord record).length :=
  Text.utf8Length_of_isAscii (isAscii_encode h)

end SecPlatform.DurableExecution
