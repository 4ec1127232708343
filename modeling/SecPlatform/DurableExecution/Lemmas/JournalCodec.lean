import SecPlatform.DurableExecution.Lemmas.JournalLaws
import SecPlatform.DurableExecution.Lemmas.RecordCodec

/-!
# Journals read back

A journal is accepted exactly when it is the text of sealed records that the observing loop accepts.
-/

namespace SecPlatform.DurableExecution

open Contracts

variable {records more : List DurableRecord} {record : DurableRecord}

/-- One line for each record. -/
def journalText (records : List DurableRecord) : Text :=
  records.flatMap fun record => encodeDurableExecutionRecord record ++ [lineBreak]

@[simp] theorem journalText_nil : journalText [] = [] := rfl

theorem journalText_cons : journalText (record :: records) =
    encodeDurableExecutionRecord record ++ lineBreak :: journalText records := by
  simp [journalText]

theorem journalText_append : journalText (records ++ more) = journalText records ++ journalText more := by
  simp [journalText]

theorem journalText_singleton : journalText [record] = encodeDurableExecutionRecord record ++ [lineBreak] := by
  simp [journalText]

theorem journalText_eq_nil : journalText records = [] ↔ records = [] := by
  cases records with
  | nil => simp
  | cons r rs => simp [journalText_cons]

theorem exact_record (record : DurableRecord) : (canonical record.toValue).Exact :=
  exact_canonical _ (isFinite_record record)

theorem lineBreak_notMem_encode (record : DurableRecord) : lineBreak ∉ encodeDurableExecutionRecord record :=
  Json.lineBreak_notMem_render _ (exact_record record)

theorem encode_ne_nil (record : DurableRecord) : encodeDurableExecutionRecord record ≠ [] := by
  rw [encodeDurableExecutionRecord, canonicalEncoding, canonical_record, Json.render]
  exact List.cons_ne_nil _ _

/-- The text of records in front of a text of records: only the line breaks matter. -/
theorem joinWith_encode (h : records ≠ []) :
    Text.joinWith [lineBreak] (records.map encodeDurableExecutionRecord) ++ [lineBreak] = journalText records := by
  induction records with
  | nil => exact absurd rfl h
  | cons r rs ih =>
      cases rs with
      | nil => simp [Text.joinWith, journalText_cons]
      | cons r' rs =>
          rw [journalText_cons, ← ih (by simp)]
          simp [Text.joinWith]

theorem splitAt_journalText (h : records ≠ []) :
    Text.splitAt lineBreak (journalText records).dropLast = records.map encodeDurableExecutionRecord := by
  induction records with
  | nil => exact absurd rfl h
  | cons r rs ih =>
      cases rs with
      | nil =>
          rw [journalText_cons, journalText_nil, List.dropLast_concat]
          exact Text.splitAt_of_notMem (lineBreak_notMem_encode r)
      | cons r' rs =>
          have hne : journalText (r' :: rs) ≠ [] := by simp [journalText_cons]
          rw [journalText_cons, List.dropLast_append_of_ne_nil (by simp), List.dropLast_cons_of_ne_nil hne,
            Text.splitAt_append (lineBreak_notMem_encode r), ih (by simp)]
          rfl

theorem getLast?_journalText (h : records ≠ []) : (journalText records).getLast? = some lineBreak := by
  rw [← joinWith_encode h, List.getLast?_concat]

section Journals

variable [Sha256] {source : Text} {obs : JournalObservation}

theorem mapM_parse_encode (h : ∀ r ∈ records, WellSealed r) :
    (records.map encodeDurableExecutionRecord).mapM parseDurableExecutionRecord = .ok records := by
  rw [mapM_eq_ok, List.forall₂_map_left_iff, List.forall₂_same]
  exact fun r hr => parseDurableExecutionRecord_ok.mpr ⟨rfl, h r hr⟩

theorem mapM_parse_ok {lines : List Text} (h : lines.mapM parseDurableExecutionRecord = .ok records) :
    lines = records.map encodeDurableExecutionRecord ∧ ∀ r ∈ records, WellSealed r := by
  rw [mapM_eq_ok] at h
  induction h with
  | nil => simp
  | cons hline _ ih =>
      obtain ⟨rfl, hsealed⟩ := parseDurableExecutionRecord_ok.mp hline
      exact ⟨by rw [ih.1, List.map_cons], List.forall_mem_cons.mpr ⟨hsealed, ih.2⟩⟩

/-- The reader of journals sees nothing but the records. -/
theorem parseDurableExecutionJournal_text (hne : records ≠ []) (h : ∀ r ∈ records, WellSealed r) :
    parseDurableExecutionJournal (journalText records) = observeDurableExecutionJournal records := by
  have hempty : [] ∉ records.map encodeDurableExecutionRecord := by
    intro hm
    obtain ⟨r, _, hr⟩ := List.mem_map.mp hm
    exact encode_ne_nil r hr
  unfold parseDurableExecutionJournal
  rw [if_neg (not_not.mpr (getLast?_journalText hne)), splitAt_journalText hne]
  simp only [if_neg hempty, mapM_parse_encode h, ok_bind]

theorem observe_records (h : observeDurableExecutionJournal records = .ok obs) : obs.records = records := by
  obtain ⟨intent, st, _, rfl⟩ := observeDurableExecutionJournal_ok.mp h
  rfl

theorem parseDurableExecutionJournal_ok : parseDurableExecutionJournal source = .ok obs ↔
    source = journalText obs.records ∧ (∀ r ∈ obs.records, WellSealed r) ∧
      observeDurableExecutionJournal obs.records = .ok obs := by
  constructor
  · intro h
    unfold parseDurableExecutionJournal at h
    split at h
    · cases h
    rename_i hlast
    rw [not_not] at hlast
    dsimp only at h
    split at h
    · cases h
    obtain ⟨records, hrecords, h⟩ := bind_eq_ok.mp h
    obtain ⟨hlines, hsealed⟩ := mapM_parse_ok hrecords
    obtain rfl := observe_records h
    refine ⟨?_, hsealed, h⟩
    have hne : obs.records ≠ [] := by
      intro hnil
      rw [hnil, List.map_nil] at hlines
      exact Text.splitAt_ne_nil _ _ hlines
    rw [← joinWith_encode hne, ← hlines, Text.joinWith_splitAt]
    exact (List.dropLast_append_getLast? lineBreak hlast).symm
  · rintro ⟨rfl, hsealed, h⟩
    have hne : obs.records ≠ [] := by
      obtain ⟨_, _, haccepts, _⟩ := observeDurableExecutionJournal_ok.mp h
      exact haccepts.ne_nil
    rw [parseDurableExecutionJournal_text hne hsealed, h]

theorem encode_injective {r r' : DurableRecord} (h : WellSealed r) (h' : WellSealed r')
    (he : encodeDurableExecutionRecord r = encodeDurableExecutionRecord r') : r = r' := by
  have hr := parseDurableExecutionRecord_ok.mpr ⟨rfl, h⟩
  rw [he, parseDurableExecutionRecord_ok.mpr ⟨rfl, h'⟩] at hr
  exact (Except.ok.inj hr).symm

/-- A journal that starts with the text of another one starts with its records. -/
theorem isPrefix_of_journalText (h : ∀ r ∈ records, WellSealed r) (hmore : ∀ r ∈ more, WellSealed r)
    (hp : journalText records <+: journalText more) : records <+: more := by
  induction records generalizing more with
  | nil => exact List.nil_prefix
  | cons r rs ih =>
      obtain ⟨rest, hrest⟩ := hp
      cases more with
      | nil => simp [journalText_cons] at hrest
      | cons r' rs' =>
          rw [journalText_cons, journalText_cons, List.append_assoc, List.cons_append] at hrest
          -- the first lines of both texts are the same
          have hlines := congrArg (Text.splitAt lineBreak) hrest
          rw [Text.splitAt_append (lineBreak_notMem_encode r), Text.splitAt_append (lineBreak_notMem_encode r'),
            List.cons.injEq] at hlines
          rw [List.forall_mem_cons] at h hmore
          obtain rfl := encode_injective h.1 hmore.1 hlines.1
          have hrest := (List.cons.inj (List.append_cancel_left hrest)).2
          exact (List.prefix_cons_inj r).mpr (ih h.2 hmore.2 ⟨rest, hrest⟩)

theorem journalText_injective (h : ∀ r ∈ records, WellSealed r) (hmore : ∀ r ∈ more, WellSealed r)
    (he : journalText records = journalText more) : records = more := by
  have hp := isPrefix_of_journalText h hmore (he ▸ List.prefix_rfl)
  have hp' := isPrefix_of_journalText hmore h (he ▸ List.prefix_rfl)
  exact hp.eq_of_length_le hp'.length_le

end Journals

end SecPlatform.DurableExecution
