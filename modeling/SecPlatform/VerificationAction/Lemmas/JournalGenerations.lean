import SecPlatform.VerificationAction.JournalGenerations
import SecPlatform.VerificationAction.Lemmas.JournalRecords

/-!
# What a reading of the journal says

A reading that finds no quarantine has accepted the journal as a whole, or found none. Behind such a reading
one more event is accepted exactly within the limits of the reader, where no migration has frozen the file.
-/

namespace SecPlatform.VerificationAction

open Contracts

variable [Sha256] {evidence : RetainedEvidence} {actionKey : VerificationActionKeyDigest}
  {file : Option RuntimeStateJournalRetainedText} {retained : RuntimeStateJournalRetainedText}
  {generation : JournalGeneration} {event : VerificationActionJournalEvent}

omit [Sha256] in
theorem observeJournalSource_ok {observed : Option RuntimeStateJournalRetainedText} :
    observeJournalSource file = .ok observed ↔
      observed = file ∧ ∀ retained ∈ file, retained.byteLength ≤ maximumBytes := by
  unfold observeJournalSource
  rw [check_bind_eq_ok, require_eq_ok]
  cases file <;> simp [eq_comm, and_comm]

theorem absentGeneration_ok {intentSource : Option RuntimeStateJournalRetainedText} :
    absentGeneration evidence intentSource = .ok generation ↔
      intentSource = none ∧ observeJournalSource evidence.legacy = .ok none ∧ generation = ⟨emptyReadback, none⟩ := by
  unfold absentGeneration
  rw [check_bind_eq_ok, require_eq_ok, bind_eq_ok]
  simp only [check_bind_eq_ok, require_eq_ok, pure_eq_ok, Except.ok.injEq]
  constructor
  · rintro ⟨hintent, legacy, hlegacy, rfl, rfl⟩
    exact ⟨hintent, hlegacy, rfl⟩
  · rintro ⟨hintent, hlegacy, rfl⟩
    exact ⟨hintent, none, hlegacy, rfl, rfl⟩

theorem presentGeneration_ok {intentSource : Option RuntimeStateJournalRetainedText} :
    presentGeneration evidence actionKey intentSource retained = .ok generation ↔
      assertCutover evidence actionKey intentSource retained = .ok () ∧ ∃ events,
        parseJournalLines actionKey retained.text = .ok events ∧ generation = ⟨readbackOf events, some retained.text⟩ := by
  unfold presentGeneration
  rw [check_bind_eq_ok, bind_eq_ok]
  simp only [parseJournalSource, map_eq_ok, pure_eq_ok, Except.ok.injEq]
  constructor
  · rintro ⟨hcutover, _, ⟨events, hevents, rfl⟩, rfl⟩
    exact ⟨hcutover, events, hevents, rfl⟩
  · rintro ⟨hcutover, events, hevents, rfl⟩
    exact ⟨hcutover, _, ⟨events, hevents, rfl⟩, rfl⟩

/-- What such a reading says of the file. -/
structure Reads (actionKey : VerificationActionKeyDigest) (file : Option RuntimeStateJournalRetainedText)
    (generation : JournalGeneration) : Prop where
  source : generation.source = file.map fun retained => retained.text
  readback : generation.readback = readbackOf generation.readback.events
  text : file.map (fun retained => retained.text) =
    if generation.readback.events = [] then none else some (journalText generation.readback.events)
  chained : Chained actionKey generation.readback.events
  bounded : generation.readback.events.length ≤ maximumEvents

/-- The migrated file is frozen: no text that extends it is the target of the migration. -/
theorem assertCutover_extended {intent : RuntimeStateJournalRetainedText} {more : Text} {physical : PhysicalIdentity}
    (h : assertCutover evidence actionKey (some intent) retained = .ok ()) (hmore : more ≠ []) :
    assertCutover evidence actionKey (some intent) ⟨retained.text ++ more, physical⟩ ≠ .ok () := by
  intro h'
  unfold assertCutover at h h'
  dsimp only at h h'
  obtain ⟨parsed, hparsed, h⟩ := bind_eq_ok.mp h
  rw [hparsed, ok_bind] at h'
  obtain ⟨-, h⟩ := check_bind_eq_ok.mp h
  obtain ⟨-, h'⟩ := check_bind_eq_ok.mp h'
  obtain ⟨legacy, hlegacy, h⟩ := bind_eq_ok.mp h
  rw [hlegacy, ok_bind] at h'
  cases legacy with
  | none => cases h
  | some legacy =>
      obtain ⟨-, h⟩ := check_bind_eq_ok.mp h
      obtain ⟨-, h'⟩ := check_bind_eq_ok.mp h'
      obtain ⟨-, hlength, -⟩ := require_eq_ok.mp h
      obtain ⟨-, hlength', -⟩ := require_eq_ok.mp h'
      have hlt := Text.utf8Length_lt_append retained.text hmore
      unfold RuntimeStateJournalRetainedText.byteLength at hlength hlength'
      dsimp only at hlength'
      omega

/-- Where no intent of a migration is left, nothing but the journal of the earlier layout is in the way. -/
theorem assertCutover_none : assertCutover evidence actionKey none retained = .ok () ↔
    observeJournalSource evidence.legacy = .ok none := by
  unfold assertCutover
  dsimp only
  rw [bind_eq_ok]
  constructor
  · rintro ⟨legacy, hlegacy, h⟩
    obtain rfl := require_eq_ok.mp h
    exact hlegacy
  · intro h
    exact ⟨none, h, require_eq_ok.mpr rfl⟩

theorem Reads.source_append (h : Reads actionKey file generation) (event : VerificationActionJournalEvent) :
    generation.source.getD [] ++ eventLine event = journalText (generation.readback.events ++ [event]) := by
  rw [h.source, h.text, journalText_snoc]
  split
  · rename_i hnil
    rw [hnil]
    rfl
  · rfl

section Locale

variable [LocaleText]

theorem quarantinedGeneration_recovery {quarantine : RuntimeStateJournalRetainedText}
    (h : quarantinedGeneration evidence actionKey quarantine file = .ok generation) :
    generation.readback.recoveryDisposition ≠ none := by
  unfold quarantinedGeneration at h
  obtain ⟨receipt, -, h⟩ := bind_eq_ok.mp h
  obtain ⟨-, h⟩ := check_bind_eq_ok.mp h
  split at h
  · obtain ⟨-, h⟩ := check_bind_eq_ok.mp h
    cases h
    exact Option.some_ne_none _
  · cases h
    exact Option.some_ne_none _

/-- A reading where no receipt puts the Action in quarantine. -/
theorem readGeneration_ok (hquarantine : evidence.quarantine = none) :
    readVerificationActionJournalGeneration evidence actionKey file = .ok generation ↔
      (∀ retained ∈ file, retained.byteLength ≤ maximumBytes) ∧
      (∀ intent ∈ evidence.intent, intent.byteLength ≤ maximumBytes) ∧
      match file with
      | none => absentGeneration evidence evidence.intent = .ok generation
      | some retained => presentGeneration evidence actionKey evidence.intent retained = .ok generation := by
  have hobserve : observeJournalSource evidence.quarantine = .ok none :=
    observeJournalSource_ok.mpr ⟨hquarantine.symm, by simp [hquarantine]⟩
  unfold readVerificationActionJournalGeneration
  rw [hobserve, ok_bind, bind_eq_ok]
  simp only [bind_eq_ok, observeJournalSource_ok]
  constructor
  · rintro ⟨_, ⟨rfl, hfile⟩, _, ⟨rfl, hintent⟩, h⟩
    exact ⟨hfile, hintent, by split at h <;> exact h⟩
  · rintro ⟨hfile, hintent, h⟩
    exact ⟨file, ⟨rfl, hfile⟩, evidence.intent, ⟨rfl, hintent⟩, by split at h <;> exact h⟩

theorem quarantine_eq_none (h : readVerificationActionJournalGeneration evidence actionKey file = .ok generation)
    (hrecovery : generation.readback.recoveryDisposition = none) : evidence.quarantine = none := by
  unfold readVerificationActionJournalGeneration at h
  obtain ⟨quarantine, hquarantine, h⟩ := bind_eq_ok.mp h
  obtain ⟨source, -, h⟩ := bind_eq_ok.mp h
  rw [← (observeJournalSource_ok.mp hquarantine).1]
  cases quarantine with
  | none => rfl
  | some quarantine => exact absurd hrecovery (quarantinedGeneration_recovery h)

theorem reads_of_readGeneration (h : readVerificationActionJournalGeneration evidence actionKey file = .ok generation)
    (hrecovery : generation.readback.recoveryDisposition = none) : Reads actionKey file generation := by
  obtain ⟨-, -, h⟩ := (readGeneration_ok (quarantine_eq_none h hrecovery)).mp h
  cases file with
  | none =>
      rw [(absentGeneration_ok.mp h).2.2]
      exact ⟨rfl, rfl, rfl, .nil, Nat.zero_le _⟩
  | some retained =>
      obtain ⟨-, events, hevents, rfl⟩ := presentGeneration_ok.mp h
      obtain ⟨hne, hlength, hchained, htext⟩ := parseJournalLines_ok.mp hevents
      exact ⟨rfl, rfl, by simp [readbackOf, hne, htext], hchained, hlength⟩

/-- One more event behind a reading is read exactly within the limits, where no intent of a migration is left. -/
theorem readGeneration_append (h : readVerificationActionJournalGeneration evidence actionKey file = .ok generation)
    (hrecovery : generation.readback.recoveryDisposition = none)
    (hfollows : Follows actionKey generation.readback.events event) (physical : PhysicalIdentity) :
    Succeeds (readVerificationActionJournalGeneration evidence actionKey
        (some ⟨generation.source.getD [] ++ eventLine event, physical⟩)) ↔
      evidence.intent = none ∧ generation.readback.events.length < maximumEvents ∧
        (generation.source.getD [] ++ eventLine event).utf8Length ≤ maximumBytes := by
  have hreads := reads_of_readGeneration h hrecovery
  have hquarantine := quarantine_eq_none h hrecovery
  obtain ⟨-, hintent, hbefore⟩ := (readGeneration_ok hquarantine).mp h
  have hlines : Succeeds (parseJournalLines actionKey (generation.source.getD [] ++ eventLine event)) ↔
      generation.readback.events.length < maximumEvents := by
    rw [hreads.source_append event]
    constructor
    · rintro ⟨events, hevents⟩
      obtain ⟨-, hlength, hchained, htext⟩ := parseJournalLines_ok.mp hevents
      rw [← journalText_injective (hreads.chained.snoc hfollows) hchained htext, List.length_append] at hlength
      exact hlength
    · intro hlength
      exact ⟨_, parseJournalLines_ok.mpr ⟨by simp, by simpa [Nat.succ_le_iff] using hlength, hreads.chained.snoc hfollows, rfl⟩⟩
  constructor
  · rintro ⟨after, hafter⟩
    obtain ⟨hbytes, -, hafter⟩ := (readGeneration_ok hquarantine).mp hafter
    obtain ⟨hcutover, events, hevents, -⟩ := presentGeneration_ok.mp hafter
    refine ⟨?_, hlines.mp ⟨events, hevents⟩, hbytes _ rfl⟩
    cases file with
    | none => exact (absentGeneration_ok.mp hbefore).1
    | some retained =>
        cases hsome : evidence.intent with
        | none => rfl
        | some intent =>
            obtain ⟨hfrozen, -⟩ := presentGeneration_ok.mp hbefore
            rw [hsome] at hcutover hfrozen
            rw [hreads.source] at hcutover
            exact absurd hcutover (assertCutover_extended hfrozen (eventLine_ne_nil event))
  · rintro ⟨hnone, hlength, hbytes⟩
    obtain ⟨events, hevents⟩ := hlines.mpr hlength
    have hlegacy : observeJournalSource evidence.legacy = .ok none := by
      cases file with
      | none => exact (absentGeneration_ok.mp hbefore).2.1
      | some retained =>
          rw [hnone] at hbefore
          exact assertCutover_none.mp (presentGeneration_ok.mp hbefore).1
    refine ⟨⟨readbackOf events, some (generation.source.getD [] ++ eventLine event)⟩,
      (readGeneration_ok hquarantine).mpr ⟨fun _ h => by rwa [← Option.some.inj h], hintent, ?_⟩⟩
    rw [hnone]
    exact presentGeneration_ok.mpr ⟨assertCutover_none.mpr hlegacy, events, hevents, rfl⟩

end Locale

end SecPlatform.VerificationAction
