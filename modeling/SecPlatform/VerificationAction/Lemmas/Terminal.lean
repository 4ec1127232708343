import SecPlatform.VerificationAction.Lemmas.Action
import SecPlatform.VerificationAction.Terminal

/-!
# Terminals read back
-/

namespace SecPlatform.VerificationAction

open Contracts Assurance

/-! ## Single values -/

@[simp] theorem written_digestValue (d : Digest) : Written (digestValue d) := trivial

@[simp] theorem written_natValue (n : Nat) : Written (natValue n) := written_ofNat n

@[simp] theorem digest_digestValue (d : Digest) (label : Text) : digest (digestValue d) label = .ok d := digest_val d label

@[simp] theorem exactDigest_digestValue (d : Digest) (label : Text) : exactDigest (digestValue d) label = .ok d :=
  checkedText_val d _

theorem safeNat?_natValue (n : SafeNat) : safeNat? (natValue n) = some n := by
  simp only [safeNat?, natValue, JsNumber.toNat?_ofNat]
  exact dif_pos n.2

@[simp] theorem exactSafeInteger_natValue (n : SafeNat) (label : Text) : exactSafeInteger (natValue n) label = .ok n := by
  simp [exactSafeInteger, safeNat?_natValue]

@[simp] theorem receiptStream_toText (stream : BoundedProcessDiagnosticStream) :
    receiptStream (.str stream.toText) = .ok stream := by
  cases stream <;> rfl

@[simp] theorem terminalExecutionKind_toText (kind : VerificationActionExecutionKind) :
    terminalExecutionKind (.str kind.toText) = .ok kind := by
  cases kind <;> rfl

theorem assertStringSet_status (status : VerificationResultStatus) (label : Text) :
    assertStringSet VerificationResultStatus.toText resultStatuses (.str status.toText) label = .ok status := by
  cases status <;> rfl

theorem assertStringSet_reasonCode (reasonCode : VerificationReasonCode) (label : Text) :
    assertStringSet VerificationReasonCode.toText reasonCodes (.str reasonCode.toText) label = .ok reasonCode := by
  cases reasonCode <;> rfl

theorem assertCanonicalStatusReason_toText (pair : StatusReason) :
    assertCanonicalStatusReason (.str pair.val.1.toText) (.str pair.val.2.toText) = .ok pair := by
  rw [assertCanonicalStatusReason, mapError_eq_ok, codexDevelopmentAssertVerificationStatusReason,
    assertStringSet_status, ok_bind, assertStringSet_reasonCode, ok_bind]
  exact dif_pos pair.2

/-! ## Values are written as they are -/

theorem written_unsignedReceipt (receipt : UnsignedReceipt) : Written receipt.toValue :=
  written_obj (by dsimp only [List.map]; decide) (by simp)

theorem written_unsignedReadback (readback : UnsignedReadback) : Written readback.toValue :=
  written_obj (by dsimp only [List.map]; decide) (by simp)

theorem written_readback (readback : BoundedProcessDiagnosticObjectReadbackReceipt) : Written readback.toValue :=
  written_obj (by dsimp only [BoundedProcessDiagnosticObjectReadbackReceipt.members, List.map]; decide)
    (by simp [BoundedProcessDiagnosticObjectReadbackReceipt.members])

/-! ## Readbacks read back -/

theorem canonicalReadback_members (readback : BoundedProcessDiagnosticObjectReadbackReceipt) (label : Text) :
    canonicalReadback readback.members readback.byteLength label = .ok readback := by
  rw [canonicalReadback, show member readback.members "objectDigest" = digestValue readback.objectDigest from rfl,
    digest_digestValue, ok_bind,
    show member readback.members "physicalIdentityDigest" = digestValue readback.physicalIdentityDigest from rfl,
    digest_digestValue, ok_bind, show member readback.members "contentDigest" = digestValue readback.contentDigest from rfl,
    digest_digestValue, ok_bind,
    show member readback.members "readbackDigest" = digestValue readback.readbackDigest from rfl, digest_digestValue]
  rfl

theorem readbackByteLength_members (readback : BoundedProcessDiagnosticObjectReadbackReceipt) (label : Text) :
    readbackByteLength readback.members label = .ok readback.byteLength := by
  rw [readbackByteLength, show member readback.members "byteLength" = natValue readback.byteLength from rfl,
    safeNat?_natValue]
  exact if_pos rfl

section Sha

variable [Sha256]

theorem written_receipt (receipt : BoundedProcessDiagnosticObjectReceipt) : Written receipt.toValue :=
  written_obj (by dsimp only [BoundedProcessDiagnosticObjectReceipt.members, List.map]; decide)
    (by simp [BoundedProcessDiagnosticObjectReceipt.members])

theorem written_object (object : BoundedProcessDiagnosticPublishedObject) : Written object.toValue :=
  written_obj (by dsimp only [BoundedProcessDiagnosticPublishedObject.members, List.map]; decide)
    (by simp [BoundedProcessDiagnosticPublishedObject.members, written_readback, written_receipt])

theorem written_objects (objects : BoundedList BoundedProcessDiagnosticPublishedObject) :
    Written (.arr (objects.val.map BoundedProcessDiagnosticPublishedObject.toValue)) := by
  refine written_arr (by simpa using objects.2) fun v hv => ?_
  obtain ⟨object, -, rfl⟩ := List.mem_map.mp hv
  exact written_object object

theorem written_terminal (terminal : VerificationActionTerminal) : Written terminal.toValue :=
  written_obj (by dsimp only [VerificationActionTerminal.members, List.map]; decide)
    (by simp [VerificationActionTerminal.members, written_objects])

/-! ## Records read back -/

theorem unsignedReceipt_members (receipt : BoundedProcessDiagnosticObjectReceipt) :
    unsignedReceipt receipt.members receipt.stream = .ok receipt.toUnsignedReceipt := by
  rw [unsignedReceipt,
    show member receipt.members "operationIdentityDigest" = digestValue receipt.operationIdentityDigest from rfl,
    exactDigest_digestValue, ok_bind,
    show member receipt.members "executionPlanDigest" = digestValue receipt.executionPlanDigest from rfl,
    exactDigest_digestValue, ok_bind,
    show member receipt.members "boundAttemptDigest" = digestValue receipt.boundAttemptDigest from rfl,
    exactDigest_digestValue, ok_bind,
    show member receipt.members "subjectDigest" = digestValue receipt.subjectDigest from rfl, exactDigest_digestValue,
    ok_bind, show member receipt.members "settlementDigest" = digestValue receipt.settlementDigest from rfl,
    exactDigest_digestValue, ok_bind, show member receipt.members "byteLength" = natValue receipt.byteLength from rfl,
    exactSafeInteger_natValue, ok_bind,
    show member receipt.members "contentDigest" = digestValue receipt.contentDigest from rfl, exactDigest_digestValue,
    ok_bind, show member receipt.members "retainedUntilUnixMs" = natValue receipt.retainedUntilUnixMs from rfl,
    exactSafeInteger_natValue]
  rfl

theorem parseReceiptValue_toValue (receipt : BoundedProcessDiagnosticObjectReceipt) :
    parseReceiptValue receipt.toValue = .ok receipt := by
  have hkeys : sortBy id (receipt.members.map Prod.fst) = sortBy id receiptKeys := rfl
  show parseReceiptMembers receipt.members = _
  rw [parseReceiptMembers, require, if_pos hkeys, ok_bind,
    show member receipt.members "schema" = .str boundedProcessDiagnosticObjectSchema from rfl, require, if_pos rfl, ok_bind,
    show member receipt.members "stream" = .str receipt.stream.toText from rfl, receiptStream_toText, ok_bind,
    unsignedReceipt_members, ok_bind, signedReceipt, dif_pos receipt.bounded,
    show member receipt.members "objectDigest" = digestValue receipt.objectDigest from rfl, exactDigest_digestValue, ok_bind,
    dif_pos receipt.binds]
  rfl

theorem parseBoundedProcessDiagnosticObjectReceipt_encode (receipt : StoredReceipt) :
    parseBoundedProcessDiagnosticObjectReceipt (encodeCanonical receipt.val.toValue) = .ok receipt := by
  have hw := written_receipt receipt.val
  have hsize := receipt.2
  rw [canonicalEncoding_written hw] at hsize
  rw [encodeCanonical_written hw, parseBoundedProcessDiagnosticObjectReceipt, dif_pos hsize]
  have hdocument : exactDocument (Json.render receipt.val.toValue) "Bounded process diagnostic receipt" receiptKeys =
      .ok receipt.val.toValue :=
    exactDocument_written hw (by rfl) (by decide) _
  rw [hdocument, ok_bind, parseReceiptValue_toValue, ok_bind, dif_pos (canonicalEncoding_written hw).symm]
  rfl

theorem canonicalDiagnosticObject_toValue (object : BoundedProcessDiagnosticPublishedObject) (label : Text) :
    canonicalDiagnosticObject object.toValue label = .ok object := by
  unfold canonicalDiagnosticObject
  rw [BoundedProcessDiagnosticPublishedObject.toValue, ordinaryRecord_written (written_object object), ok_bind,
    exactKeys_written, ok_bind, show member object.members "receipt" = object.receipt.val.toValue from rfl,
    parseBoundedProcessDiagnosticObjectReceipt_encode, ok_bind]
  dsimp only
  rw [show member object.members "readback" = object.readback.toValue from rfl,
    BoundedProcessDiagnosticObjectReadbackReceipt.toValue, ordinaryRecord_written (written_readback object.readback),
    ok_bind, exactKeys_written, ok_bind, readbackByteLength_members, ok_bind, canonicalReadback_members, ok_bind,
    boundObject, dif_pos object.binds]
  · dsimp only [BoundedProcessDiagnosticObjectReadbackReceipt.members, List.map]
    decide
  · dsimp only [BoundedProcessDiagnosticPublishedObject.members, List.map]
    decide

theorem boundTerminal_val (terminal : VerificationActionTerminal)
    (inOrder : sortBy BoundedProcessDiagnosticPublishedObject.stream terminal.diagnosticObjects.val =
      terminal.diagnosticObjects.val) :
    boundTerminal terminal.members terminal.toTerminalFields inOrder = .ok terminal := by
  unfold boundTerminal
  split
  · rename_i failure h
    cases terminal.admitted.symm.trans h
  · rw [show member terminal.members "resultDigest" = digestValue terminal.resultDigest from rfl, digest_digestValue, ok_bind,
      dif_pos terminal.binds]
    rfl

/-- The value of a terminal is read back as the terminal. -/
theorem createVerificationActionTerminal_toValue (terminal : VerificationActionTerminal) :
    createVerificationActionTerminal terminal.toValue = .ok terminal := by
  have hobjects (h) : BoundedList.mapIndexed
      (fun index candidate => canonicalDiagnosticObject candidate (indexed diagnosticObjectsLabel index))
      ⟨terminal.diagnosticObjects.val.map _, h⟩ = .ok ⟨terminal.diagnosticObjects.val, by simpa using h⟩ :=
    mapIndexed_toValue (fun index object => canonicalDiagnosticObject_toValue object _) h
  have hsorted (h) : sortedByStream ⟨terminal.diagnosticObjects.val, h⟩ = terminal.diagnosticObjects :=
    Subtype.ext terminal.inOrder
  unfold createVerificationActionTerminal
  rw [VerificationActionTerminal.toValue, ordinaryRecord_written (written_terminal terminal), ok_bind, exactKeys_written,
    ok_bind, show member terminal.members "status" = .str terminal.statusReason.val.1.toText from rfl,
    show member terminal.members "reasonCode" = .str terminal.statusReason.val.2.toText from rfl,
    assertCanonicalStatusReason_toText, ok_bind,
    show member terminal.members "actionKey" = digestValue terminal.actionKey from rfl, digest_digestValue, ok_bind,
    show member terminal.members "boundAttemptDigest" = digestValue terminal.boundAttemptDigest from rfl,
    digest_digestValue, ok_bind,
    show member terminal.members "ownerTerminalReceiptDigest" = digestValue terminal.ownerTerminalReceiptDigest from rfl,
    digest_digestValue, ok_bind, show member terminal.members "diagnosticObjects" = .arr _ from rfl,
    ordinaryArray_written (written_objects _), ok_bind, hobjects, ok_bind,
    show member terminal.members "executionKind" = .str terminal.executionKind.toText from rfl,
    terminalExecutionKind_toText, ok_bind]
  · simp only [hsorted]
    exact boundTerminal_val terminal _
  · dsimp only [VerificationActionTerminal.members, List.map]
    decide

end Sha

end SecPlatform.VerificationAction
